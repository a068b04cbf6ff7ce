import Picoalloc.Payloads

/-!
What each operation does, seen from outside: which chunk is given up, which one
takes its place, and what happens to payload bytes. Operations that fail change
nothing.
-/

namespace Picoalloc
open CheckedMachine ByteMemory Tilings

variable {build : Build} {σ : Type} {E : Env σ} {total : Nat} {s s' s'' : AllocatorState build σ}

structure Unchanged (s s' : AllocatorState build σ) : Prop where
  allocatedSpace : s'.allocatedSpace = s.allocatedSpace
  baseAddress : s'.baseAddress = s.baseAddress
  mask : s'.freeListsWithUnallocatedMemory = s.freeListsWithUnallocatedMemory
  first : s'.firstInFreeList = s.firstInFreeList
  memory : s'.memory = s.memory
  payloadWrites : s'.payloadWrites = s.payloadWrites

def Heap.Rest (heap : Heap) (old : Option (Nat × Nat)) (place size : Nat) : Prop :=
  heap.Allots place size ∧ ∀ chunk ∈ old, place ≠ chunk.1

/-- An operation turns one heap into another: the chunk `old` is given up and the chunk
`new`, which inherits its bytes, is allotted, each a place and a size in units. -/
structure Effect (total : Nat) (heap heap' : Heap) (old new : Option (Nat × Nat))
    (s s' : AllocatorState build σ) : Prop where
  represents : Represents total s' heap'
  allots : ∀ place size, heap'.Allots place size ↔ new = some (place, size) ∨ heap.Rest old place size
  fresh : ∀ chunk ∈ new, ∀ place size, heap.Rest old place size → place ≠ chunk.1
  keeps : Keeps (heap.Rest old) s s'
  carried : ∀ chunk ∈ old, ∀ chunk' ∈ new, ∀ i < 32 * (min chunk.2 chunk'.2 - headerSize),
    s'.memory (s.unit (chunk'.1 + headerSize) + i) = s.memory (s.unit (chunk.1 + headerSize) + i)
  writes : ∃ written, s'.payloadWrites = written ++ s.payloadWrites ∧ ∀ range ∈ written,
    ∃ chunk ∈ new, s.unit (chunk.1 + headerSize) ≤ range.1 ∧
      range.1 + range.2 ≤ s.unit (chunk.1 + chunk.2)

section Failing

variable {heap : Heap}

theorem Unchanged.refl (s : AllocatorState build σ) : Unchanged s s :=
  ⟨rfl, rfl, rfl, rfl, rfl, rfl⟩

theorem Unchanged.trans (first : Unchanged s s') (second : Unchanged s' s'') : Unchanged s s'' :=
  ⟨second.allocatedSpace.trans first.allocatedSpace, second.baseAddress.trans first.baseAddress,
    second.mask.trans first.mask, second.first.trans first.first,
    second.memory.trans first.memory, second.payloadWrites.trans first.payloadWrites⟩

theorem Unchanged.unit (unchanged : Unchanged s s') (place : Nat) : s'.unit place = s.unit place := by
  rw [State.unit, State.unit, unchanged.baseAddress]

theorem Unchanged.keeps (unchanged : Unchanged s s') (kept : Nat → Nat → Prop) : Keeps kept s s' :=
  ⟨unchanged.baseAddress, unchanged.allocatedSpace.ge, fun _ _ _ _ _ _ => by rw [unchanged.memory],
    fun _ _ => by rw [unchanged.memory]⟩

theorem refused_unchanged {need : Nat} (refused : (s.ask E need).1 = false) :
    Unchanged s (s.ask E need).2 :=
  ⟨by rw [ask_allocatedSpace, refused]; rfl, ask_baseAddress E s need, ask_mask E s need,
    ask_firstInFreeList E s need, ask_memory E s need, ask_payloadWrites E s need⟩

theorem refused_represents (represents : Represents total s heap) {need : Nat}
    (inside : need ≤ total) (refused : (s.ask E need).1 = false) :
    Represents total (s.ask E need).2 heap := by
  have asked := represents.asked (E := E) inside
  rwa [refused, if_neg Bool.false_ne_true] at asked

theorem Effect.after {heap' : Heap} {old new : Option (Nat × Nat)} (unchanged : Unchanged s s')
    (effect : Effect total heap heap' old new s' s'') : Effect total heap heap' old new s s'' where
  represents := effect.represents
  allots := effect.allots
  fresh := effect.fresh
  keeps := (unchanged.keeps _).trans effect.keeps
  carried chunk here chunk' there i inside := by
    have carried := effect.carried chunk here chunk' there i inside
    rwa [unchanged.unit, unchanged.unit, unchanged.memory] at carried
  writes := by
    have writes := effect.writes
    simp only [unchanged.unit, unchanged.payloadWrites] at writes
    exact writes

theorem Effect.none (represents : Represents total s' heap) (unchanged : Unchanged s s') :
    Effect total heap heap none none s s' where
  represents := represents
  allots place size := by simp [Heap.Rest]
  fresh _ there := nomatch there
  keeps := unchanged.keeps _
  carried _ here := nomatch here
  writes := ⟨[], unchanged.payloadWrites, fun _ member => nomatch member⟩

end Failing

section InPlace

variable {heap : Heap} {place size : Nat}

theorem allots_split (here : heap.Allots place size) :
    ∃ before after, heap.chunks = before ++ ⟨size, true⟩ :: after ∧ span Chunk.size before = place := by
  obtain ⟨before, after, chunks, at'⟩ := tileAt_split here
  exact ⟨before, after, chunks, by omega⟩

theorem rest_some (heap : Heap) (place size p n : Nat) :
    heap.Rest (some (place, size)) p n ↔ heap.Allots p n ∧ p ≠ place := by
  simp [Heap.Rest]

theorem rest_none (heap : Heap) (p n : Nat) : heap.Rest none p n ↔ heap.Allots p n := by
  simp [Heap.Rest]

theorem rest_apart (heap : Heap) (place size size' : Nat) :
    ∀ chunk ∈ some (place, size'), ∀ p n, heap.Rest (some (place, size)) p n → p ≠ chunk.1 := by
  rintro _ ⟨⟩ p n rest
  exact ((rest_some heap place size p n).mp rest).2

theorem usableSizeImpl_ok (represents : Represents total s heap) (here : heap.Allots place size) :
    usableSizeImpl build (s.unit (place + headerSize)) s = .ok (size - headerSize, s) := by
  obtain ⟨before, after, chunks, rfl⟩ := allots_split here
  obtain ⟨positive, granted, _, _, tag, header⟩ := represents.holds chunks
  rw [usableSizeImpl, header, bind_ok (load_ok represents.placed (by omega) _), tag, Chunk.tag_size]
  exact lift_ok (uncheckedSub_ok positive) s

theorem free_effect (constant : ∀ e, E.totalSpace e = total) (represents : Represents total s heap)
    (here : heap.Allots place size) :
    ∃ s', free build E (s.unit (place + headerSize)) s = .ok ((), s') ∧
      Effect total heap (heap.free build.target place) (some (place, size)) none s s' := by
  obtain ⟨before, after, chunks, rfl⟩ := allots_split here
  obtain ⟨s', run, represents', frame⟩ := free_ok constant represents chunks
  refine ⟨s', run, represents', fun p n => ?_, (fun _ there => nomatch there),
    frame.keeps.mono fun p n rest => ⟨n, Nat.le_refl _, ?_⟩, (fun _ _ _ there => nomatch there), [], frame.payloadWrites, fun _ member => nomatch member⟩
  · rw [Heap.free_allots represents.valid chunks, rest_some]
    simp
  · exact (rest_some heap _ size p n).mp rest

theorem shrinkInplace_effect (constant : ∀ e, E.totalSpace e = total)
    (represents : Represents total s heap) (here : heap.Allots place size) {new : Nat}
    (nonempty : new ≠ 0) (bound : new + headerSize < 2 ^ sizeBits) :
    ∃ s', shrinkInplace build E (s.unit (place + headerSize)) new s = .ok ((), s') ∧
      Effect total heap (heap.shrink build.target place new) (some (place, size))
        (some (place, min size (new + headerSize))) s s' := by
  obtain ⟨before, after, chunks, rfl⟩ := allots_split here
  obtain ⟨s', run, represents', frame⟩ := shrinkInplace_ok constant represents chunks nonempty bound
  refine ⟨s', run, represents', fun p n => ?_, rest_apart heap _ _ _,
    frame.keeps.mono fun p n rest => ⟨n, Nat.le_refl _, ?_⟩, ?_, [], frame.payloadWrites,
    fun _ member => nomatch member⟩
  · rw [Heap.shrink_allots represents.valid chunks, rest_some]
    simp [eq_comm]
  · exact Or.inr ((rest_some heap _ size p n).mp rest)
  · rintro _ ⟨⟩ _ ⟨⟩ i inside
    refine frame.keeps.payload _ _ _ (Or.inl ⟨rfl, rfl⟩) ?_ ?_
    · exact Nat.le_add_right _ _
    · simp only [State.unit, headerSize] at *
      omega

theorem growInplace_effect (constant : ∀ e, E.totalSpace e = total)
    (represents : Represents total s heap) (here : heap.Allots place size) (newSize : Nat) :
    ∃ result s', growInplace build E (s.unit (place + headerSize)) newSize s = .ok (result, s') ∧
      match result with
      | none => Unchanged s s' ∧ Represents total s' heap
      | some usable => usable = max (size - headerSize) newSize ∧ ∃ heap',
          Effect total heap heap' (some (place, size)) (some (place, usable + headerSize)) s s' := by
  obtain ⟨before, after, chunks, rfl⟩ := allots_split here
  have settles := growInplace_ok constant represents chunks newSize
  cases decision : heap.growth build.target (span Chunk.size before) newSize with
  | none =>
      rw [decision] at settles
      exact ⟨none, s, settles, Unchanged.refl s, represents⟩
  | some decided =>
      obtain ⟨need, usable, heap'⟩ := decided
      rw [decision] at settles
      obtain ⟨inside, settled⟩ := settles
      have allots := fun p n => (Heap.growth_allots (p := p) (n := n) represents.valid chunks decision).1
      have reported := (Heap.growth_allots (p := 0) (n := 0) represents.valid chunks decision).2
      cases answer : (s.ask E need).1 with
      | false =>
          rw [answer, if_neg Bool.false_ne_true] at settled
          exact ⟨none, _, settled, refused_unchanged answer,
            refused_represents represents inside answer⟩
      | true =>
          rw [answer, if_pos rfl] at settled
          obtain ⟨s', run, represents', frame⟩ := settled
          have keeps : Keeps heap.Allots s s' :=
            (ask_keeps _ E s need).trans frame.keeps
          refine ⟨some usable, s', run, reported, heap', represents', fun p n => ?_,
            rest_apart heap _ _ _, keeps.mono fun p n rest => ⟨n, Nat.le_refl _, rest.1⟩, ?_, [], ?_,
            fun _ member => nomatch member⟩
          · rw [allots, rest_some]
            simp [eq_comm]
          · rintro _ ⟨⟩ _ ⟨⟩ i covered
            refine keeps.payload _ size _ here (Nat.le_add_right _ _) ?_
            simp only [State.unit, headerSize] at *
            omega
          · exact frame.payloadWrites.trans (ask_payloadWrites E s need)

end InPlace

section Allocating

variable {heap : Heap} {align size phase : Nat} {fit : Fit}

theorem Fit.Valid.fresh {target : Target} (valid : fit.Valid target phase align size heap)
    (pieces : fit.Pieces align size phase) (heapValid : heap.Valid target total) {p n : Nat}
    (here : heap.Allots p n) : p ≠ fit.cut.headerOffset := by
  have header := pieces.header
  have whole := pieces.whole
  have wide := heapValid.positive _ (tileAt_mem here)
  have apart := heap.chunks_apart here (chunkAt_here valid.chunks)
  have different : p ≠ fit.place := by
    rintro rfl
    have unique := tileAt_unique heapValid.positive here (chunkAt_here valid.chunks)
    cases unique
  simp only [Fit.place, headerSize] at *
  omega

theorem zeroed_byte (zeroMemory : Bool) {address length i : Nat} (inside : i < length) :
    (s.zeroed zeroMemory address length).memory (address + i) =
      if zeroMemory then 0 else s.memory (address + i) := by
  cases zeroMemory
  · rfl
  · simp [State.zeroed, fill, inside]

structure Returned (align size place : Nat) (zeroMemory : Bool) (s s' : AllocatorState build σ) :
    Prop where
  aligned : s.unit (place + headerSize) % Size.bytes align = 0
  filled : ∀ i < 32 * size, s'.memory (s.unit (place + headerSize) + i) =
    if zeroMemory then 0 else s.memory (s.unit (place + headerSize) + i)

theorem zeroed_effect {heap' : Heap} {place : Nat} (zeroMemory : Bool)
    (represents : Represents total s' heap')
    (allots : ∀ p n, heap'.Allots p n ↔ (p = place ∧ n = size + headerSize) ∨ heap.Allots p n)
    (fresh : ∀ p n, heap.Allots p n → p ≠ place) (keeps : Keeps heap'.Allots s s')
    (writes : s'.payloadWrites = s.payloadWrites) :
    Effect total heap heap' none (some (place, size + headerSize)) s
      (s'.zeroed zeroMemory (s.unit (place + headerSize)) (32 * size)) := by
  have here : heap'.Allots place (size + headerSize) := (allots _ _).mpr (Or.inl ⟨rfl, rfl⟩)
  have overwritten := zeroed_overwritten zeroMemory place size s'
  rw [keeps.unit] at overwritten
  refine ⟨represents.overwritten here overwritten, fun p n => ?_, ?_, ?_,
    (fun _ there => nomatch there), ?_⟩
  · rw [allots]
    simp [Heap.Rest, eq_comm]
  · rintro _ ⟨⟩ p n rest
    exact fresh p n rest.1
  · refine (keeps.mono fun p n rest => ⟨n, Nat.le_refl _, ?_⟩).trans
      ((overwritten.keeps here ((represents.materialized here).2 rfl)).mono
        fun p n rest => ⟨n, Nat.le_refl _, ?_, fresh p n rest.1⟩)
    all_goals exact (allots p n).mpr (Or.inr rest.1)
  · cases zeroMemory with
    | false => exact ⟨[], writes, fun _ member => nomatch member⟩
    | true =>
        refine ⟨[(s.unit (place + headerSize), 32 * size)], by simp [State.zeroed, writes],
          fun range member => ⟨_, rfl, ?_⟩⟩
        obtain rfl := List.mem_singleton.mp member
        simp only [State.unit, headerSize]
        omega

theorem allocInitialized_effect (constant : ∀ e, E.totalSpace e = total)
    (represents : Represents total s heap) {k : Nat} (power : align = 2 ^ k) (isCalloc : Bool) :
    ∃ result s', allocInitialized build E align size isCalloc s = .ok (result, s') ∧
      match result with
      | none => Unchanged s s' ∧ Represents total s' heap
      | some pointer => ∃ heap' place, pointer = s.unit (place + headerSize) ∧
          Effect total heap heap' none (some (place, size + headerSize)) s s' ∧
          Returned align size place
            (decide (s.allocatedSpace > place + headerSize) && isCalloc) s s' := by
  have positive : 0 < align := power ▸ Nat.two_pow_pos k
  cases chosen : heap.chooseFit build.target (s.baseAddress / 32) align size with
  | none =>
      exact ⟨none, s, allocInitialized_none constant represents positive isCalloc chosen,
        Unchanged.refl s, represents⟩
  | some fit =>
      obtain ⟨inside, settled⟩ := allocInitialized_some constant represents power isCalloc chosen
      obtain ⟨valid, limit⟩ := chooseFit_valid represents.valid chosen
      have pieces := valid.pieces positive
      have behind := pieces.behind
      have aligned := aligned_data represents.placed
        (by rw [pieces.data]; exact (alignUp_spec _ _ positive).1) (small_align limit)
      rw [behind] at settled aligned
      cases answer : (s.ask E fit.cut.endOffset).1 with
      | false =>
          rw [answer, if_neg Bool.false_ne_true] at settled
          exact ⟨none, _, settled, refused_unchanged answer,
            refused_represents represents inside answer⟩
      | true =>
          rw [answer, if_pos rfl] at settled
          obtain ⟨s', run, represents', frame⟩ := settled
          have keeps := (ask_keeps _ E s fit.cut.endOffset).trans frame.keeps
          refine ⟨some _, _, run, _, fit.cut.headerOffset, rfl,
            zeroed_effect _ represents' (fun p n => Heap.allocate_allots represents.valid valid pieces)
              (fun p n here => valid.fresh pieces represents.valid here) keeps
              (frame.payloadWrites.trans (ask_payloadWrites E s _)), aligned, fun i bound => ?_⟩
          rw [zeroed_byte _ bound]
          have untouched := keeps.payload fit.cut.headerOffset (size + headerSize)
            (s.unit (fit.cut.headerOffset + headerSize) + i)
            ((Heap.allocate_allots represents.valid valid pieces).mpr (Or.inl ⟨rfl, rfl⟩))
            (Nat.le_add_right _ _) (by simp only [State.unit, headerSize]; omega)
          rw [untouched]

theorem allocImpl_effect (constant : ∀ e, E.totalSpace e = total)
    (represents : Represents total s heap) (isCalloc : Bool) (align size : Nat) :
    ∃ result s', allocImpl build E align size isCalloc s = .ok (result, s') ∧
      match result with
      | none => Unchanged s s' ∧ Represents total s' heap
      | some pointer => ∃ heap' place, pointer = s.unit (place + headerSize) ∧
          Effect total heap heap' none (some (place, size + headerSize)) s s' ∧
          Returned align size place
            (decide (s.allocatedSpace > place + headerSize) && isCalloc) s s' := by
  rw [allocImpl]
  by_cases rejected : align = 0 ∨ (!isPowerOfTwo align) = true
  · rw [if_pos rejected]
    exact ⟨none, s, rfl, Unchanged.refl s, represents⟩
  · rw [if_neg rejected, bind_ok (initializeAllocator_again represents.placed),
      if_neg (show ¬ (!true) = true from Bool.false_ne_true)]
    obtain ⟨k, power⟩ := isPowerOfTwo_iff.mp (by simpa using (not_or.mp rejected).2)
    exact allocInitialized_effect constant represents power isCalloc

end Allocating

section Moving

variable {heap : Heap} {place size : Nat}

theorem Effect.same (represents : Represents total s heap) (here : heap.Allots place size) :
    Effect total heap heap (some (place, size)) (some (place, size)) s s where
  represents := represents
  allots p n := by
    rw [rest_some]
    refine ⟨fun there => ?_, ?_⟩
    · by_cases same : p = place
      · subst same
        rw [represents.valid.allots_unique there here]
        exact Or.inl rfl
      · exact Or.inr ⟨there, same⟩
    · rintro (same | ⟨there, _⟩)
      · cases same
        exact here
      · exact there
  fresh := rest_apart heap _ _ _
  keeps := Keeps.refl _ s
  carried := by
    rintro _ ⟨⟩ _ ⟨⟩ _ _
    rfl
  writes := ⟨[], rfl, fun _ member => nomatch member⟩

theorem copyPayload_ok (represents : Represents total s heap) {place' size' length : Nat}
    (source : heap.Allots place size) (destination : heap.Allots place' size')
    (different : place ≠ place') (fits : length + headerSize ≤ size)
    (room : length + headerSize ≤ size') :
    ∃ s', copyPayload build (s.unit (place + headerSize)) (s.unit (place' + headerSize)) (32 * length) s
        = .ok ((), s') ∧
      Overwritten place' size' s s' ∧
      (∀ i < 32 * length, s'.memory (s.unit (place' + headerSize) + i) =
        s.memory (s.unit (place + headerSize) + i)) ∧
      s'.payloadWrites = (s.unit (place' + headerSize), 32 * length) :: s.payloadWrites := by
  have placed := represents.placed
  have granted := (represents.materialized source).2 rfl
  have granted' := (represents.materialized destination).2 rfl
  have apart := heap.chunks_apart source destination
  simp only [headerSize] at *
  have mapped : s.mapped (s.unit (place + 1)) (32 * length) = true := mapped_units placed (by omega)
  have mapped' : s.mapped (s.unit (place' + 1)) (32 * length) = true := mapped_units placed (by omega)
  refine ⟨{ s with memory := copy s.memory (s.unit (place + 1)) (s.unit (place' + 1)) (32 * length)
                   payloadWrites := (s.unit (place' + 1), 32 * length) :: s.payloadWrites }, ?_,
    ⟨rfl, rfl, rfl, rfl, rfl, rfl, fun a changed => ?_⟩, fun i inside => copy_inside _ _ _ _ _ inside, rfl⟩
  · rw [copyPayload, if_neg (by simp only [State.unit]; omega), if_pos (by rw [mapped, mapped']; rfl)]
  · by_contra outside
    refine changed (copy_outside _ _ _ _ _ ?_)
    simp only [State.unit, headerSize] at *
    omega

theorem Effect.silent {heap' : Heap} {old : Option (Nat × Nat)}
    (effect : Effect total heap heap' old .none s s') : s'.payloadWrites = s.payloadWrites := by
  obtain ⟨written, log, inside⟩ := effect.writes
  cases written with
  | nil => exact log
  | cons range rest =>
      obtain ⟨_, impossible, _⟩ := inside range List.mem_cons_self
      cases impossible

section Replacing

variable {heap₁ heap₂ : Heap} {place' size' : Nat} {s₁ s₂ s₃ : AllocatorState build σ}

theorem Effect.rest_keeps (allotted : Effect total heap heap₁ .none (some (place', size')) s s₁)
    (written : Overwritten place' size' s₁ s₂)
    (freed : Effect total heap₁ heap₂ (some (place, size)) .none s₂ s₃) :
    Keeps (heap.Rest (some (place, size))) s s₃ := by
  have destination : heap₁.Allots place' size' := (allotted.allots _ _).mpr (Or.inl rfl)
  have survives : ∀ p n, heap.Rest (some (place, size)) p n → heap₁.Allots p n ∧ p ≠ place' :=
    fun p n rest => by
      have before := (rest_none heap p n).mpr rest.1
      exact ⟨(allotted.allots p n).mpr (Or.inr before), allotted.fresh _ rfl p n before⟩
  have allotting := allotted.keeps.mono fun p n (rest : heap.Rest (some (place, size)) p n) =>
    ⟨n, Nat.le_refl _, (rest_none heap p n).mpr rest.1⟩
  have writing := (written.keeps destination ((allotted.represents.materialized destination).2 rfl)).mono
    fun p n (rest : heap.Rest (some (place, size)) p n) => ⟨n, Nat.le_refl _, survives p n rest⟩
  have freeing := freed.keeps.mono fun p n (rest : heap.Rest (some (place, size)) p n) =>
    ⟨n, Nat.le_refl _, (survives p n rest).1, rest.2⟩
  exact allotting.trans (writing.trans freeing)

theorem Effect.replaces {length : Nat} (here : heap.Allots place size)
    (whole : length + headerSize = size) (room : size ≤ size')
    (allotted : Effect total heap heap₁ .none (some (place', size')) s s₁)
    (written : Overwritten place' size' s₁ s₂)
    (moved : ∀ i < 32 * length, s₂.memory (s.unit (place' + headerSize) + i) =
      s₁.memory (s.unit (place + headerSize) + i))
    (log : s₂.payloadWrites = (s.unit (place' + headerSize), 32 * length) :: s₁.payloadWrites)
    (freed : Effect total heap₁ heap₂ (some (place, size)) .none s₂ s₃) :
    Effect total heap heap₂ (some (place, size)) (some (place', size')) s s₃ := by
  have different : place ≠ place' := allotted.fresh _ rfl _ _ ((rest_none heap _ _).mpr here)
  have destination : heap₁.Allots place' size' := (allotted.allots _ _).mpr (Or.inl rfl)
  have unit₂ : ∀ p, s₂.unit p = s.unit p := fun p => (written.unit p).trans (allotted.keeps.unit p)
  refine ⟨freed.represents, fun p n => ?_, ?_, allotted.rest_keeps written freed, ?_, ?_⟩
  · rw [freed.allots, rest_some, rest_some, allotted.allots, rest_none]
    constructor
    · rintro (impossible | ⟨new | old, other⟩)
      · cases impossible
      · exact Or.inl new
      · exact Or.inr ⟨old, other⟩
    · rintro (new | ⟨old, other⟩)
      · cases new
        exact Or.inr ⟨Or.inl rfl, Ne.symm different⟩
      · exact Or.inr ⟨Or.inr old, other⟩
  · rintro _ ⟨⟩ p n rest
    exact allotted.fresh _ rfl p n ((rest_none heap p n).mpr rest.1)
  · -- the copy lies between the two operations, each of which keeps the chunk it reads or fills
    rintro _ ⟨⟩ _ ⟨⟩ i inside
    simp only [headerSize] at inside whole
    have before := allotted.keeps.payload place size (s.unit (place + headerSize) + i)
      ((rest_none heap _ _).mpr here) (Nat.le_add_right _ _)
      (by simp only [State.unit, headerSize]; omega)
    have after := freed.keeps.payload place' size' (s.unit (place' + headerSize) + i)
      ((rest_some heap₁ place size _ _).mpr ⟨destination, Ne.symm different⟩)
      (by rw [unit₂]; exact Nat.le_add_right _ _)
      (by rw [unit₂]; simp only [State.unit, headerSize]; omega)
    rw [after, moved i (by omega), before]
  · obtain ⟨earlier, log₁, inside₁⟩ := allotted.writes
    refine ⟨(s.unit (place' + headerSize), 32 * length) :: earlier, ?_, fun range member => ?_⟩
    · rw [freed.silent, log, log₁]
      rfl
    · rcases List.mem_cons.mp member with rfl | before
      · refine ⟨_, rfl, Nat.le_refl _, ?_⟩
        simp only [State.unit, headerSize] at *
        omega
      · exact inside₁ range before

end Replacing

/-- Moving an allocation to a chunk that is large enough for all of it. -/
theorem reallocMove_effect (constant : ∀ e, E.totalSpace e = total)
    (represents : Represents total s heap) (here : heap.Allots place size) (align : Nat) {newSize : Nat}
    (larger : size ≤ newSize + headerSize) :
    ∃ result s', reallocMove build E (s.unit (place + headerSize)) align newSize (size - headerSize) s
        = .ok (result, s') ∧
      match result with
      | none => Unchanged s s' ∧ Represents total s' heap
      | some pointer => ∃ heap' place', pointer = s.unit (place' + headerSize) ∧ place ≠ place' ∧
          Effect total heap heap' (some (place, size)) (some (place', newSize + headerSize)) s s' := by
  have wide : 0 < size := represents.valid.positive _ (tileAt_mem here)
  have granted : place + size ≤ s.allocatedSpace := (represents.materialized here).2 rfl
  have within := represents.placed.within
  have limit : total < 2 ^ 27 := represents.placed.small
  have whole : size - headerSize + headerSize = size := Nat.sub_add_cancel wide
  obtain ⟨result, s₁, (allocate : alloc build E align newSize s = .ok (result, s₁)), effect⟩ :=
    allocImpl_effect constant represents false align newSize
  cases result with
  | none =>
      refine ⟨none, s₁, ?_, effect⟩
      rw [reallocMove, bind_ok allocate]
      rfl
  | some pointer =>
      obtain ⟨heap₁, place', rfl, allotted, _⟩ := effect
      have everything := (rest_none heap place size).mpr here
      have source : heap₁.Allots place size := (allotted.allots _ _).mpr (Or.inr everything)
      have destination : heap₁.Allots place' (newSize + headerSize) :=
        (allotted.allots _ _).mpr (Or.inl rfl)
      have different : place ≠ place' := allotted.fresh _ rfl _ _ everything
      have unit₁ := allotted.keeps.unit
      obtain ⟨s₂, copied, written, moved, log⟩ := copyPayload_ok allotted.represents source
        destination different whole.le (whole.trans_le larger)
      rw [unit₁, unit₁] at copied moved
      rw [unit₁] at log
      obtain ⟨s₃, freed, effect₃⟩ := free_effect constant
        (allotted.represents.overwritten destination written) source
      rw [written.unit, unit₁] at freed
      refine ⟨some _, s₃, ?_, heap₁.free build.target place, place', rfl, different,
        Effect.replaces here whole larger allotted written moved log effect₃⟩
      rw [reallocMove, bind_ok allocate]
      simp only
      rw [bytes_eq (by simp only [headerSize, unitLimit]; omega), bind_ok copied, bind_ok freed]
      rfl

/-- When `realloc` without in-place resizing copies no more than it allocates. -/
def Covered (build : Build) (E : Env σ) (s : AllocatorState build σ) (align newSize usable : Nat) :
    Prop :=
  build.reallocInplace = true ∨ newSize = 0 ∨ usable ≤ newSize ∨
    ∃ s', alloc build E align newSize s = .ok (none, s')

theorem realloc_effect (constant : ∀ e, E.totalSpace e = total)
    (represents : Represents total s heap) (here : heap.Allots place size) {align newSize : Nat}
    (covered : Covered build E s align newSize (size - headerSize)) :
    ∃ result s', realloc build E (s.unit (place + headerSize)) align newSize s = .ok (result, s') ∧
      match result with
      | none =>
          if newSize = 0 then
            Effect total heap (heap.free build.target place) (some (place, size)) none s s'
          else Unchanged s s' ∧ Represents total s' heap
      | some pointer => ∃ heap' place', pointer = s.unit (place' + headerSize) ∧
          Effect total heap heap' (some (place, size)) (some (place', newSize + headerSize)) s s' := by
  have wide : 0 < size := represents.valid.positive _ (tileAt_mem here)
  have granted : place + size ≤ s.allocatedSpace := (represents.materialized here).2 rfl
  have within := represents.placed.within
  have limit : total < 2 ^ 27 := represents.placed.small
  rw [realloc, bind_ok (usableSizeImpl_ok represents here)]
  by_cases same : newSize = size - headerSize
  · rw [if_pos same]
    refine ⟨some _, s, rfl, heap, place, rfl, ?_⟩
    have whole : newSize + headerSize = size := by rw [same]; exact Nat.sub_add_cancel wide
    rw [whole]
    exact Effect.same represents here
  rw [if_neg same]
  by_cases empty : newSize = 0
  · obtain ⟨s', freed, effect⟩ := free_effect constant represents here
    rw [if_pos (by simp [Size.isEmpty, empty]), bind_ok freed]
    refine ⟨none, s', rfl, ?_⟩
    simp only
    rw [if_pos empty]
    exact effect
  rw [if_neg (by simp [Size.isEmpty, empty])]
  by_cases inplace : build.reallocInplace = true
  · rw [if_pos inplace]
    by_cases less : newSize < size - headerSize
    · obtain ⟨s', shrunk, effect⟩ := shrinkInplace_effect constant represents here empty
        (by simp only [headerSize, sizeBits] at *; omega)
      rw [if_pos less, bind_ok shrunk]
      rw [Nat.min_eq_right (by omega)] at effect
      exact ⟨some _, s', rfl, _, place, rfl, effect⟩
    · rw [if_neg less]
      obtain ⟨result, s₁, grown, effect⟩ := growInplace_effect constant represents here newSize
      rw [bind_ok grown]
      cases result with
      | some usable =>
          obtain ⟨reported, heap', effect⟩ := effect
          rw [Nat.max_eq_right (by omega)] at reported
          subst reported
          exact ⟨some _, s₁, rfl, heap', place, rfl, effect⟩
      | none =>
          -- growing failed and changed nothing, so the move starts from the same heap
          obtain ⟨unchanged, represents₁⟩ := effect
          obtain ⟨result, s', moved, effect⟩ :=
            reallocMove_effect (E := E) constant represents₁ here align
              (show size ≤ newSize + headerSize by omega)
          rw [unchanged.unit] at moved
          refine ⟨result, s', moved, ?_⟩
          cases result with
          | none =>
              simp only
              rw [if_neg empty]
              exact ⟨unchanged.trans effect.1, effect.2⟩
          | some pointer =>
              obtain ⟨heap', place', rfl, -, effect⟩ := effect
              exact ⟨heap', place', unchanged.unit _, effect.after unchanged⟩
  · rw [if_neg inplace]
    rcases covered with impossible | impossible | larger | ⟨s', declined⟩
    · exact absurd impossible inplace
    · exact absurd impossible empty
    · obtain ⟨result, s', moved, effect⟩ :=
        reallocMove_effect (E := E) constant represents here align
          (show size ≤ newSize + headerSize by omega)
      refine ⟨result, s', moved, ?_⟩
      cases result with
      | none =>
          simp only
          rw [if_neg empty]
          exact effect
      | some pointer =>
          obtain ⟨heap', place', rfl, -, effect⟩ := effect
          exact ⟨heap', place', rfl, effect⟩
    -- the new chunk may be too small for the copy, but it is never allotted
    · obtain ⟨result, s₁, (allocate : alloc build E align newSize s = .ok (result, s₁)), effect⟩ :=
        allocImpl_effect constant represents false align newSize
      obtain ⟨rfl, rfl⟩ := Prod.mk.inj (Except.ok.inj (allocate.symm.trans declined))
      refine ⟨none, s₁, ?_, ?_⟩
      · rw [reallocMove, bind_ok allocate]
        rfl
      · simp only
        rw [if_neg empty]
        exact effect

end Moving

end Picoalloc
