import Picoalloc.Footprints
import Picoalloc.Integrity

/-!
Memory and the environment. An access outside of what `expand_memory_until` granted is a
fault, so calls that go through touch granted memory only. The allocated space is what
was granted, and more is asked for only when it is needed and there.
-/

namespace Picoalloc
open CheckedMachine ByteMemory Tilings

variable {build : Build} {σ : Type} {E : Env σ} {total : Nat} {memory : Memory}
  {session session' : Session build σ}

def Env.Refuses (E : Env σ) (limit : Nat) : Prop :=
  ∀ e base size, limit < size → (E.expandMemoryUntil e base size).1 = false

/-- What a session and its next call have to do with the environment's grants. -/
structure Granting (E : Env σ) (total : Nat) (session : Session build σ) : Prop where
  touches : ∀ op, Permitted op session →
    ∃ outcome session', step E op session = .ok (outcome, session')
  exact : granted session.allocator.baseAddress session.allocator.trace =
    session.allocator.allocatedSpace
  within : session.allocator.allocatedSpace ≤ total
  grows : ∀ op outcome session', Permitted op session → step E op session = .ok (outcome, session') →
    session.allocator.allocatedSpace ≤ session'.allocator.allocatedSpace
  requests : Requests total session.allocator.trace
  headers : session.allocator.baseAddress ≠ Pointer.null → ∀ place chunk,
    ChunkAt 0 (session.allocator.chunks total) place chunk →
      place + headerSize ≤ session.allocator.allocatedSpace
  links : session.allocator.baseAddress ≠ Pointer.null →
    ∀ bin < (Bins.binConfig build.target).binCount, ∀ pointer ∈ session.allocator.freeList bin total,
      ∃ place, pointer = session.allocator.unit place ∧
        place + headerSize ≤ session.allocator.allocatedSpace
  limited : ∀ limit, E.Refuses limit → session.allocator.allocatedSpace ≤ limit

section Limits

-- Initialization takes more instances than the default allows.
set_option synthInstance.maxSize 1000

variable {s : AllocatorState build σ} {limit : Nat}

def Limited (limit : Nat) (s : AllocatorState build σ) : Prop :=
  ∀ base size, .expandMemoryUntil base size true ∈ s.trace → size ≤ limit

instance limited_anchored : Anchored (Limited limit : AllocatorState build σ → Prop) where
  congr s s' _ trace _ limited := by
    simp only [Limited, trace]
    exact limited

instance limited_overwrites : Overwrites (Limited limit : AllocatorState build σ → Prop) where
  overwrite _ _ _ limited := limited

theorem limited_expands (refuses : E.Refuses limit) :
    Expands E (Limited limit : AllocatorState build σ → Prop) where
  expand s base size limited place n member := by
    rcases List.mem_cons.mp member with same | earlier
    · injection same with _ size_eq answer
      by_contra above
      rw [size_eq] at above
      rw [refuses s.env base size (Nat.lt_of_not_le above)] at answer
      cases answer
    · exact limited place n earlier

theorem limited_starts (refuses : E.Refuses limit) :
    Maintains (Limited limit : AllocatorState build σ → Prop) (initializeAllocator build E) := by
  have expands : Expands E (Limited limit : AllocatorState build σ → Prop) := limited_expands refuses
  have reserve : Maintains (Limited limit : AllocatorState build σ → Prop)
      (allocateAddressSpace build E) := by
    constructor
    intro s a s' limited ran place n member
    cases ran
    rcases List.mem_cons.mp member with same | earlier
    · cases same
    · exact limited place n earlier
  have release : ∀ base, Maintains (Limited limit : AllocatorState build σ → Prop)
      (freeAddressSpace build E base) := by
    intro base
    constructor
    intro s a s' limited ran place n member
    cases ran
    rcases List.mem_cons.mp member with same | earlier
    · cases same
    · exact limited place n earlier
  have enter : ∀ base, Maintains (Limited limit : AllocatorState build σ → Prop)
      (modify fun s => { s with baseAddress := base, allocatedSpace := freeChunkHeaderSize } :
        Run build σ PUnit) := by
    intro base
    constructor
    intro s a s' limited ran
    cases ran
    exact limited
  have register : ∀ base, Maintains (Limited limit : AllocatorState build σ → Prop)
      (registerFirstChunk build E base) := by
    intro base
    unfold registerFirstChunk
    dsimp only
    infer_instance
  unfold initializeAllocator initializeImpl
  infer_instance

theorem Reached.limited (refuses : E.Refuses limit) (reached : Reached build E memory session) :
    Limited limit session.allocator := by
  have expands : Expands E (Limited limit : AllocatorState build σ → Prop) := limited_expands refuses
  have starts : Maintains (Limited limit : AllocatorState build σ → Prop)
      (initializeAllocator build E) := limited_starts refuses
  refine Reachable.invariant (fun session => Limited limit session.allocator) ?_ ?_ reached
  · rintro _ ⟨env, rfl⟩ base size member
    cases member
  · intro s op outcome s' limited _ ran
    exact step_maintains limited ran

end Limits

section Growth

variable {heap heap' : Heap} {op : Op} {outcome : Outcome}

theorem Turn.grows (turn : Turn total session heap op outcome session' heap') :
    session.allocator.allocatedSpace ≤ session'.allocator.allocatedSpace := by
  cases turn with
  | granted _ effect => exact effect.keeps.grown
  | refused _ unchanged => exact unchanged.allocatedSpace.ge
  | freed _ _ _ effect => exact effect.keeps.grown
  | shrunk _ _ _ effect => exact effect.keeps.grown
  | grown _ _ effect => exact effect.keeps.grown
  | moved _ _ effect => exact effect.keeps.grown
  | failed _ _ unchanged => exact unchanged.allocatedSpace.ge
  | wrote => exact Nat.le_refl _

theorem granting_served (serves : Serves total memory session heap) :
    granted session.allocator.baseAddress session.allocator.trace =
        session.allocator.allocatedSpace ∧
      session.allocator.allocatedSpace ≤ total ∧ Requests total session.allocator.trace :=
  ⟨serves.represents.placed.granted_eq, serves.represents.placed.within,
    serves.represents.placed.requests⟩

theorem granting_sound (sound : Sound total memory session) :
    granted session.allocator.baseAddress session.allocator.trace =
        session.allocator.allocatedSpace ∧
      session.allocator.allocatedSpace ≤ total ∧ Requests total session.allocator.trace := by
  rcases sound with idle | ⟨heap, serves⟩
  · have untouched := idle.untouched
    rw [untouched.allocatedSpace, untouched.granted]
    exact ⟨rfl, Nat.zero_le _, untouched.requests⟩
  · exact granting_served serves

/-- No byte is touched that the environment did not grant. -/
theorem memory_within_grants (lawful : E.Lawful build.target total)
    (inplace : build.reallocInplace = true) (reached : Reached build E memory session) :
    Granting E total session := by
  have sound := reached.sound lawful inplace
  obtain ⟨exact_, within, requests⟩ := granting_sound sound
  have copies : ∀ op, Copies E op session := fun op => copies_inplace inplace op session
  constructor
  · intro op permitted
    obtain ⟨outcome, session', run, -⟩ := step_sound lawful sound permitted (copies op)
    exact ⟨outcome, session', run⟩
  · exact exact_
  · exact within
  · intro op outcome session' permitted ran
    rcases sound with idle | ⟨heap, serves⟩
    · rw [idle.untouched.allocatedSpace]
      exact Nat.zero_le _
    · obtain ⟨heap', turn, -⟩ := serves.turn lawful.constant permitted (copies op) ran
      exact turn.grows
  · exact requests
  · intro initialized place chunk here
    obtain ⟨heap, serves⟩ := sound.represents initialized
    rw [serves.represents.chunks] at here
    exact (serves.represents.materialized here).1
  · intro initialized bin small pointer member
    obtain ⟨heap, serves⟩ := sound.represents initialized
    rw [serves.represents.freeList small (Nat.le_refl _)] at member
    obtain ⟨place, listed, rfl⟩ := List.mem_map.mp member
    exact ⟨place, rfl, serves.represents.index.granted bin place listed⟩
  · intro limit refuses
    by_contra above
    rw [← exact_] at above
    exact above (reached.limited refuses _ _ (granted_mem (by omega)))

theorem memory_within_grants_sample : ∃ session pointer outcome,
    step sampleEnv (.alloc 1 2) sampleStart = .ok (outcome, session) ∧
      session.live 0 = some pointer ∧ Granting sampleEnv 8 session := by
  obtain ⟨session, pointer, outcome, run, live, reached⟩ := sample_allocated
  exact ⟨session, pointer, outcome, run, live, memory_within_grants sample_lawful rfl reached⟩

end Growth

end Picoalloc
