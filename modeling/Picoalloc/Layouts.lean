import Picoalloc.Contracts

/-!
The layout of a heap depends on its live chunks only, not on how they came about. Free
chunks fill the space between them, neighbours merged, so two sessions that agree on the
live chunks agree on every header, list and bit; what differs is the order inside the
lists and how much is materialized.
-/

namespace Picoalloc
open CheckedMachine ByteMemory Tilings

variable {build : Build} {σ σ' : Type} {E : Env σ} {total : Nat} {memory : Memory}
  {session : Session build σ}

def LiveChunk (session : Session build σ) (place size : Nat) : Prop :=
  (∃ handle, session.live handle = some (session.allocator.unit (place + headerSize))) ∧
    (readChunk session.allocator place).size = size

def State.freeOffsets (s : AllocatorState build σ) (bin total : Nat) : List Nat :=
  (s.freeList bin total).map fun pointer => pointer - s.baseAddress

/-- The same chunks, headers and bits, and the same chunks in every free list. -/
structure SameLayout (total : Nat) (s : AllocatorState build σ) (s' : AllocatorState build σ') :
    Prop where
  chunks : s'.chunks total = s.chunks total
  prevChunkSize : ∀ place chunk, ChunkAt 0 (s.chunks total) place chunk →
    view s' .prevChunkSize place = view s .prevChunkSize place
  mask : s'.freeListsWithUnallocatedMemory = s.freeListsWithUnallocatedMemory
  listed : ∀ bin < (Bins.binConfig build.target).binCount, ∀ offset,
    offset ∈ s'.freeOffsets bin total ↔ offset ∈ s.freeOffsets bin total

/-- What a session and any other with the same live chunks have in common, and the calls
that therefore undo each other. -/
structure Canonical (E : Env σ) (total : Nat) (session : Session build σ) : Prop where
  unique : ∀ (σ' : Type) (E' : Env σ') (memory' : Memory) (session' : Session build σ'),
    E'.Lawful build.target total → Reached build E' memory' session' →
    session'.allocator.baseAddress ≠ Pointer.null →
    (∀ place size, LiveChunk session' place size ↔ LiveChunk session place size) →
    SameLayout total session.allocator session'.allocator
  freeOrder : ∀ handles handles' : List Nat, handles.Nodup →
    (∀ handle ∈ handles, session.live handle ≠ none) → handles.Perm handles' →
    ∃ outcomes outcomes' session₁ session₂,
      runList (step E) (handles.map .free) session = .ok (outcomes, session₁) ∧
      runList (step E) (handles'.map .free) session = .ok (outcomes', session₂) ∧
      SameLayout total session₁.allocator session₂.allocator
  allocFree : ∀ isCalloc align size pointer session₁,
    step E (Op.allocation isCalloc align size) session = .ok (.pointer (some pointer), session₁) →
    ∃ session₂, step E (.free session.calls) session₁ = .ok (.done, session₂) ∧
      SameLayout total session.allocator session₂.allocator
  growShrink : ∀ handle pointer usable newSize grown session₁, session.live handle = some pointer →
    usableSizeImpl build pointer session.allocator = .ok (usable, session.allocator) → usable ≠ 0 →
    step E (.growInplace handle newSize) session = .ok (.usable (some grown), session₁) →
    ∃ session₂, step E (.shrinkInplace handle usable) session₁ = .ok (.done, session₂) ∧
      SameLayout total session.allocator session₂.allocator
  allFreed : ∀ handles : List Nat, handles.Nodup →
    (∀ handle, session.live handle ≠ none ↔ handle ∈ handles) →
    ∃ outcomes session', runList (step E) (handles.map .free) session = .ok (outcomes, session') ∧
      session'.allocator.chunks total = [⟨total, false⟩] ∧
      ∃ bin < (Bins.binConfig build.target).binCount,
        (∀ other < (Bins.binConfig build.target).binCount,
          session'.allocator.binBit other = true ↔ other = bin) ∧
        ∀ i < build.target.maskBits,
          session'.allocator.freeListsWithUnallocatedMemory.primaryMask.getLsbD i = true ↔
            i = bin / build.target.maskBits

section Heaps

variable {target : Target} {heap heap' : Heap} {place size : Nat}

theorem loose_determined (x y : Chunk) (loose : ¬ x.isAllocated = true) (loose' : ¬ y.isAllocated = true)
    (equal : x.size = y.size) : x = y := by
  cases x
  cases y
  simp_all

/-- Valid heaps with the same allocated chunks have the same chunks. -/
theorem Heap.Valid.chunks_unique (valid : heap.Valid target total) (valid' : heap'.Valid target total)
    (same : ∀ place size, heap'.Allots place size ↔ heap.Allots place size) :
    heap'.chunks = heap.chunks := by
  apply tiling_unique loose_determined valid'.positive valid.positive valid'.separated valid.separated
    (valid'.tiles.trans valid.tiles.symm)
  rintro place ⟨size, flag⟩ rfl
  exact same place size

theorem Heap.Valid.bins_unique (valid : heap.Valid target total) (valid' : heap'.Valid target total)
    (same : ∀ place size, heap'.Allots place size ↔ heap.Allots place size) (bin place : Nat) :
    place ∈ heap'.bins bin ↔ place ∈ heap.bins bin := by
  rw [valid.registered, valid'.registered, valid.chunks_unique valid' same]

theorem Heap.Valid.chunks_free (valid : heap.Valid target total) (positive : 0 < total)
    (empty : ∀ place size, ¬ heap.Allots place size) : heap.chunks = [⟨total, false⟩] := by
  apply @tiling_unique _ _ _ 0 _ _ loose_determined valid.positive
  · simpa using positive
  · exact valid.separated
  · exact .singleton _
  · simpa using valid.tiles
  · rintro place ⟨size, flag⟩ rfl
    refine iff_of_false (empty place size) ?_
    rintro (⟨-, impossible⟩ | impossible)
    · cases impossible
    · exact impossible

theorem Heap.Valid.bins_free (valid : heap.Valid target total) (chunks : heap.chunks = [⟨total, false⟩])
    (bin : Nat) : heap.bins bin ≠ [] ↔ bin = Bins.binOf target total := by
  have registered := valid.registered
  rw [chunks] at registered
  constructor
  · intro occupied
    obtain ⟨place, member⟩ := List.exists_mem_of_ne_nil _ occupied
    obtain ⟨size, ⟨-, same⟩ | impossible, rfl⟩ := (registered bin place).mp member
    · cases same
      rfl
    · exact impossible.elim
  · rintro rfl
    exact List.ne_nil_of_mem ((registered _ 0).mpr ⟨total, Or.inl ⟨rfl, rfl⟩, rfl⟩)

theorem Represents.freeOffsets {s : AllocatorState build σ} (represents : Represents total s heap)
    {bin : Nat} (small : bin < (Bins.binConfig build.target).binCount) :
    s.freeOffsets bin total = (heap.bins bin).map (32 * ·) := by
  rw [State.freeOffsets, represents.freeList small (Nat.le_refl _), List.map_map]
  apply List.map_congr_left
  intro place _
  simp only [Function.comp, State.unit]
  omega

/-- Representations of heaps with the same allocated chunks are laid out alike. -/
theorem Represents.sameLayout {s : AllocatorState build σ} {s' : AllocatorState build σ'}
    (represents : Represents total s heap) (represents' : Represents total s' heap')
    (same : ∀ place size, heap'.Allots place size ↔ heap.Allots place size) :
    SameLayout total s s' := by
  have chunks := represents.valid.chunks_unique represents'.valid same
  have bins := fun bin place =>
    represents.valid.bins_unique represents'.valid same bin place
  constructor
  · rw [represents.chunks, represents'.chunks, chunks]
  · intro place chunk here
    rw [represents.chunks] at here
    obtain ⟨before, after, split, rfl⟩ := tileAt_split here
    rw [Nat.zero_add, (represents.around split).2.1.1,
      (represents'.around (chunks.trans split)).2.1.1]
  · apply BitMask.represents_unique represents'.index.mask
    refine represents_congr (fun bin => ?_) represents.index.mask
    simp only [ne_eq, List.eq_nil_iff_forall_not_mem, bins]
  · intro bin small offset
    rw [represents.freeOffsets small, represents'.freeOffsets small]
    simp only [List.mem_map, bins]

theorem Serves.liveChunk (serves : Serves total memory session heap) :
    LiveChunk session place size ↔ heap.Allots place size := by
  constructor
  · rintro ⟨⟨handle, live⟩, read⟩
    obtain ⟨place', size', here, same⟩ := serves.held handle _ live
    rw [unit_inj] at same
    obtain rfl : place = place' := by omega
    rw [serves.represents.readChunk here] at read
    exact read ▸ here
  · intro here
    refine ⟨serves.owned place size here, ?_⟩
    rw [serves.represents.readChunk here]

end Heaps

section Undoing

variable {heap heap' : Heap} {handle pointer place size : Nat} {s' : AllocatorState build σ}

theorem Serves.freeOne (constant : ∀ e, E.totalSpace e = total)
    (serves : Serves total memory session heap) (alive : session.live handle ≠ none) :
    ∃ s' heap', step E (.free handle) session = .ok (.done, session.released handle s') ∧
      Serves total memory (session.released handle s') heap' ∧
      s'.baseAddress = session.allocator.baseAddress ∧
      ∀ place size, heap'.Allots place size ↔ heap.Allots place size ∧
        session.live handle ≠ some (session.allocator.unit (place + headerSize)) := by
  obtain ⟨place, size, here, live⟩ := serves.chunk alive
  obtain ⟨s', run, effect⟩ := free_effect (E := E) constant serves.represents here
  refine ⟨s', _, step_free live run, serves.released here live effect, effect.keeps.baseAddress,
    fun p n => ?_⟩
  rw [effect.allots, rest_some, live]
  simp only [reduceCtorEq, false_or, ne_eq, Option.some.injEq, unit_inj]
  constructor
  · rintro ⟨there, other⟩
    exact ⟨there, fun same => other (by omega)⟩
  · rintro ⟨there, other⟩
    exact ⟨there, fun same => other (by omega)⟩

theorem Serves.freeAll (constant : ∀ e, E.totalSpace e = total)
    (serves : Serves total memory session heap) {handles : List Nat} (nodup : handles.Nodup)
    (alive : ∀ handle ∈ handles, session.live handle ≠ none) :
    ∃ outcomes session' heap',
      runList (step E) (handles.map .free) session = .ok (outcomes, session') ∧
      Serves total memory session' heap' ∧
      ∀ place size, heap'.Allots place size ↔ heap.Allots place size ∧ ∀ handle ∈ handles,
        session.live handle ≠ some (session.allocator.unit (place + headerSize)) := by
  induction handles generalizing session heap with
  | nil => exact ⟨[], session, heap, rfl, serves, by simp⟩
  | cons handle rest ih =>
      obtain ⟨fresh, nodup⟩ := List.nodup_cons.mp nodup
      obtain ⟨s₁, heap₁, run, serves₁, base, allots₁⟩ :=
        serves.freeOne (E := E) constant (alive handle List.mem_cons_self)
      have others : ∀ other ∈ rest, (session.released handle s₁).live other = session.live other :=
        fun other member => Function.update_of_ne (ne_of_mem_of_not_mem member fresh) _ _
      obtain ⟨outcomes, session', heap', runs, serves', allots'⟩ := ih serves₁ nodup
        fun other member => by
          rw [others other member]
          exact alive other (List.mem_cons_of_mem handle member)
      refine ⟨_, session', heap', runList_cons run runs, serves', fun place size => ?_⟩
      have unit : (session.released handle s₁).allocator.unit (place + headerSize) =
          session.allocator.unit (place + headerSize) := by
        rw [State.unit, State.unit]
        exact congrArg (· + 32 * (place + headerSize)) base
      rw [allots', allots₁, unit, List.forall_mem_cons, and_assoc]
      refine and_congr_right fun _ => and_congr_right fun _ => forall₂_congr fun other member => ?_
      rw [others other member]

theorem Serves.allocFree (lawful : E.Lawful build.target total)
    (serves : Serves total memory session heap) {isCalloc : Bool} {align size : Nat}
    {session₁ : Session build σ}
    (ran : step E (Op.allocation isCalloc align size) session =
      .ok (.pointer (some pointer), session₁)) :
    ∃ session₂, step E (.free session.calls) session₁ = .ok (.done, session₂) ∧
      SameLayout total session.allocator session₂.allocator := by
  obtain ⟨heap₁, turn, serves₁⟩ := serves.turn lawful.constant
    (allocation_permitted isCalloc align size session)
    (allocation_copies E isCalloc align size session) ran
  obtain ⟨place, s₁, rfl, rfl, effect, -⟩ := turn.returned
  have bound : (session.allocated (some (session.allocator.unit (place + headerSize))) s₁).live
      session.calls = some (session.allocator.unit (place + headerSize)) := Function.update_self _ _ _
  obtain ⟨s₂, heap₂, run, serves₂, -, allots⟩ := serves₁.freeOne (E := E) lawful.constant
    (show _ ≠ none by rw [bound]; exact Option.some_ne_none _)
  refine ⟨_, run, serves.represents.sameLayout serves₂.represents fun p n => ?_⟩
  have unit : ∀ p, (session.allocated (some (session.allocator.unit (place + headerSize)))
      s₁).allocator.unit p = session.allocator.unit p := effect.keeps.unit
  rw [allots, bound, unit, effect.allots]
  simp only [ne_eq, Option.some.injEq, unit_inj, Prod.mk.injEq]
  constructor
  · rintro ⟨⟨rfl, rfl⟩ | rest, other⟩
    · exact absurd rfl other
    · exact rest.1
  · intro here
    have rest : heap.Rest none p n := ⟨here, fun _ impossible => nomatch impossible⟩
    have elsewhere := effect.fresh _ rfl p n rest
    exact ⟨Or.inr rest, fun same => elsewhere (by omega)⟩

theorem Serves.growShrink (lawful : E.Lawful build.target total)
    (serves : Serves total memory session heap) {usable newSize grown : Nat}
    {session₁ : Session build σ} (live : session.live handle = some pointer)
    (sized : usableSizeImpl build pointer session.allocator = .ok (usable, session.allocator))
    (nonempty : usable ≠ 0)
    (ran : step E (.growInplace handle newSize) session = .ok (.usable (some grown), session₁)) :
    ∃ session₂, step E (.shrinkInplace handle usable) session₁ = .ok (.done, session₂) ∧
      SameLayout total session.allocator session₂.allocator := by
  have represents := serves.represents
  obtain ⟨place, size, here, rfl⟩ := serves.held handle pointer live
  cases sized.symm.trans (usableSizeImpl_ok represents here)
  have wide := represents.valid.positive _ (tileAt_mem here)
  have granted := (represents.materialized here).2 rfl
  have within := represents.placed.within
  have small := represents.placed.small
  obtain ⟨result, s₁, run, effect⟩ :=
    growInplace_effect (E := E) lawful.constant represents here newSize
  rw [step_grow live run] at ran
  cases ran
  obtain ⟨rfl, heap₁, effect⟩ := effect
  have there : heap₁.Allots place (max (size - headerSize) newSize + headerSize) :=
    (effect.allots _ _).mpr (Or.inl rfl)
  obtain ⟨s₂, shrunk, effect₂⟩ := shrinkInplace_effect (E := E) lawful.constant effect.represents there
    nonempty (by simp only [headerSize, sizeBits, unitLimit] at *; omega)
  rw [effect.keeps.unit] at shrunk
  have live₁ : ({ session with allocator := s₁ } : Session build σ).live handle =
    some (session.allocator.unit (place + headerSize)) := live
  refine ⟨_, step_shrink live₁ shrunk, ?_⟩
  rw [if_neg nonempty]
  -- Layouts are told apart by their allocated chunks, so it is enough that these are back.
  apply represents.sameLayout effect₂.represents
  intro p n
  have back : min (max (size - headerSize) newSize + headerSize) (size - headerSize + headerSize) =
      size := by
    simp only [headerSize] at *
    omega
  rw [effect₂.allots, rest_some, effect.allots, rest_some, back]
  simp only [Option.some.injEq, Prod.mk.injEq]
  constructor
  · rintro (⟨rfl, rfl⟩ | ⟨⟨rfl, rfl⟩ | rest, other⟩)
    · exact here
    · exact absurd rfl other
    · exact rest.1
  · intro there'
    by_cases same : p = place
    · subst same
      exact Or.inl ⟨rfl, represents.valid.allots_unique here there'⟩
    · exact Or.inr ⟨Or.inr ⟨there', same⟩, same⟩

end Undoing

section Canonical

/-- The layout of a heap is determined by its live chunks. -/
theorem canonical_heap (lawful : E.Lawful build.target total) (inplace : build.reallocInplace = true)
    (reached : Reached build E memory session)
    (initialized : session.allocator.baseAddress ≠ Pointer.null) : Canonical E total session := by
  obtain ⟨heap, serves⟩ := (reached.sound lawful inplace).represents initialized
  have represents := serves.represents
  constructor
  · intro σ' E' memory' session' lawful' reached' initialized' same
    obtain ⟨heap', serves'⟩ := (reached'.sound lawful' inplace).represents initialized'
    apply represents.sameLayout serves'.represents
    intro place size
    rw [← serves.liveChunk, ← serves'.liveChunk]
    exact same place size
  · intro handles handles' nodup alive perm
    obtain ⟨outcomes, session₁, heap₁, runs, serves₁, allots₁⟩ :=
      serves.freeAll (E := E) lawful.constant nodup alive
    obtain ⟨outcomes', session₂, heap₂, runs', serves₂, allots₂⟩ :=
      serves.freeAll (E := E) lawful.constant (perm.nodup nodup)
        fun handle member => alive handle (perm.mem_iff.mpr member)
    refine ⟨_, _, session₁, session₂, runs, runs', ?_⟩
    apply serves₁.represents.sameLayout serves₂.represents
    intro place size
    simp only [allots₁, allots₂, perm.mem_iff]
  · intro isCalloc align size pointer session₁ ran
    exact serves.allocFree lawful ran
  · intro handle pointer usable newSize grown session₁ live sized nonempty ran
    exact serves.growShrink lawful live sized nonempty ran
  · intro handles nodup all
    obtain ⟨outcomes, session', heap', runs, serves', allots⟩ :=
      serves.freeAll (E := E) lawful.constant nodup fun handle => (all handle).mpr
    -- Every allocated chunk has an owner, and all of them were freed.
    have empty : ∀ place size, ¬ heap'.Allots place size := by
      intro place size here
      obtain ⟨there, others⟩ := (allots place size).mp here
      obtain ⟨handle, live⟩ := serves.owned place size there
      exact others handle ((all handle).mp (by rw [live]; exact Option.some_ne_none _)) live
    have chunks := serves'.represents.valid.chunks_free lawful.positive empty
    have bins := serves'.represents.valid.bins_free chunks
    refine ⟨outcomes, session', runs, serves'.represents.chunks.trans chunks,
      Bins.binOf build.target total, Bins.binOf_lt build.target total, fun other small => ?_,
      fun i small => ?_⟩
    · rw [serves'.represents.binBit small, bins]
    · have wide : 0 < build.target.maskBits := by cases build.target <;> decide
      rw [serves'.represents.index.mask.primary i small]
      simp only [bins]
      constructor
      · rintro ⟨j, below, same⟩
        rw [← same, Nat.mul_add_div wide, Nat.div_eq_of_lt below, Nat.add_zero]
      · rintro rfl
        exact ⟨_, Nat.mod_lt _ wide, Nat.div_add_mod _ _⟩

theorem canonical_heap_sample : ∃ session outcome,
    step sampleEnv (.alloc 1 2) sampleStart = .ok (outcome, session) ∧
      Canonical sampleEnv 8 session := by
  obtain ⟨session, outcome, run, initialized, reached⟩ := sample_based
  exact ⟨session, outcome, run, canonical_heap sample_lawful rfl reached initialized⟩

end Canonical

end Picoalloc
