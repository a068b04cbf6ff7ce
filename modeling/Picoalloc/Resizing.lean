import Picoalloc.Footprints
import Picoalloc.HeapInvariant

/-!
Exactly what `shrink_inplace` and `grow_inplace` do to the tiling, and when. A
shrink by the largest `Size` overflows before it compares anything; every other
shrink, and every grow, changes one chunk and the free space behind it.
-/

namespace Picoalloc
open CheckedMachine ByteMemory IntrusiveLists Tilings

variable {build : Build} {σ : Type} {E : Env σ} {total : Nat} {s : AllocatorState build σ}

def freeBehind : List Chunk → Nat
  | ⟨size, false⟩ :: _ => size
  | _ => 0

def pastFree : List Chunk → List Chunk
  | ⟨_, false⟩ :: rest => rest
  | after => after

def freeChunk (size : Nat) : List Chunk := if size = 0 then [] else [⟨size, false⟩]

section Shape

variable {target : Target} {heap : Heap} {before after : List Chunk} {old new : Nat}

theorem Gap.fill_heap (target : Target) (gap : Gap) (space : Nat) :
    ((gap.fill target).heap space).chunks = gap.before ++ (freeChunk gap.size ++ gap.after) ∧
      ∀ bin, (gap.size ≠ 0 → bin ≠ Bins.binOf target gap.size) →
        ((gap.fill target).heap space).bins bin = gap.bins bin := by
  rw [Gap.fill, Gap.placeFree, freeChunk]
  by_cases filled : gap.size = 0
  · rw [if_pos filled, if_pos filled]
    exact ⟨rfl, fun _ _ => rfl⟩
  · rw [if_neg filled, if_neg filled]
    constructor
    · simp [Gap.heap, Gap.place]
    · intro bin other
      exact Function.update_of_ne (other filled) _ _

theorem Gap.absorbNext_shape (target : Target) (gap : Gap)
    (positive : ∀ chunk ∈ gap.after, 0 < chunk.size) :
    (gap.absorbNext target).before = gap.before ∧
      (gap.absorbNext target).size = gap.size + freeBehind gap.after ∧
      (gap.absorbNext target).after = pastFree gap.after ∧
      ∀ bin, (freeBehind gap.after ≠ 0 → bin ≠ Bins.binOf target (freeBehind gap.after)) →
        (gap.absorbNext target).bins bin = gap.bins bin := by
  obtain ⟨before, size, after, bins⟩ := gap
  match after with
  | [] => exact ⟨rfl, rfl, rfl, fun _ _ => rfl⟩
  | ⟨next, true⟩ :: rest => exact ⟨rfl, rfl, rfl, fun _ _ => rfl⟩
  | ⟨next, false⟩ :: rest =>
      refine ⟨rfl, rfl, rfl, fun bin other => ?_⟩
      have wide : 0 < next := positive ⟨next, false⟩ (by simp)
      exact Function.update_of_ne (other wide.ne') _ _

/-- Resizing a chunk changes that chunk and the free space behind it, and the bins of
the old and of the new free space. -/
theorem Heap.resize_shape (valid : heap.Valid target total)
    (here : heap.chunks = before ++ ⟨old, true⟩ :: after) (new : Nat) :
    (heap.resize target (span Chunk.size before) new).chunks =
        before ++ ⟨new, true⟩ :: (freeChunk (old + freeBehind after - new) ++ pastFree after) ∧
      ∀ bin, (freeBehind after ≠ 0 → bin ≠ Bins.binOf target (freeBehind after)) →
        (old + freeBehind after - new ≠ 0 →
          bin ≠ Bins.binOf target (old + freeBehind after - new)) →
        (heap.resize target (span Chunk.size before) new).bins bin = heap.bins bin := by
  have positive : ∀ chunk ∈ after, 0 < chunk.size := fun chunk member =>
    valid.positive chunk (by rw [here]; simp [member])
  rw [Heap.resize, Heap.split_here valid here]
  simp only
  obtain ⟨-, size, rest, bins⟩ := Gap.absorbNext_shape target
    ⟨before ++ [⟨old, true⟩], 0, after, heap.bins⟩ positive
  generalize (Gap.mk (before ++ [⟨old, true⟩]) 0 after heap.bins).absorbNext target = gap at *
  have width : (gap.resize before old new).size = old + freeBehind after - new := by
    simp only [Gap.resize, size]
    omega
  have filled := Gap.fill_heap target (gap.resize before old new) heap.allocatedSpace
  rw [width] at filled
  obtain ⟨chunks, others⟩ := filled
  constructor
  · rw [chunks]
    simp [Gap.resize, rest]
  · intro bin otherOld otherNew
    rw [others bin otherNew]
    exact bins bin otherOld

end Shape

/-- The allocated chunk behind a pointer, met on the walk through the headers. -/
structure Payload (total : Nat) (s : AllocatorState build σ) (pointer : Nat) (before : List Chunk)
    (usable : Nat) (after : List Chunk) : Prop where
  chunks : s.chunks total = before ++ ⟨usable + headerSize, true⟩ :: after
  address : pointer = s.unit (span Chunk.size before + headerSize)
  size : usableSizeImpl build pointer s = .ok (usable, s)

def State.Allocated (total : Nat) (s : AllocatorState build σ) (pointer size : Nat) : Prop :=
  ∃ place, pointer = s.unit (place + headerSize) ∧ ChunkAt 0 (s.chunks total) place ⟨size, true⟩

structure SameBin (total bin : Nat) (s s' : AllocatorState build σ) : Prop where
  list : s'.freeList bin total = s.freeList bin total
  bit : s'.binBit bin = s.binBit bin
  links : ∀ pointer ∈ s.freeList bin total,
    nextOf s' pointer = nextOf s pointer ∧ prevOf s' pointer = prevOf s pointer

/-- A chunk got a new size at the expense of the free space behind it. All other chunks
are as before, and so are the bins that neither the old nor the new free space is in. -/
structure Resized (total : Nat) (pointer : Nat) (before : List Chunk) (usable newUsable : Nat)
    (after : List Chunk) (s s' : AllocatorState build σ) : Prop where
  size : usableSizeImpl build pointer s' = .ok (newUsable, s')
  chunks : s'.chunks total = before ++ ⟨newUsable + headerSize, true⟩ ::
    (freeChunk (usable + freeBehind after - newUsable) ++ pastFree after)
  wellFormed : WellFormed total s'
  bins : ∀ bin < (Bins.binConfig build.target).binCount,
    (freeBehind after ≠ 0 → bin ≠ Bins.binOf build.target (freeBehind after)) →
    (usable + freeBehind after - newUsable ≠ 0 →
      bin ≠ Bins.binOf build.target (usable + freeBehind after - newUsable)) → SameBin total bin s s'

section Observing

variable {heap heap' : Heap} {s' : AllocatorState build σ} {before after : List Chunk} {usable : Nat}

theorem Represents.payload (represents : Represents total s heap) {place size : Nat}
    (here : heap.Allots place size) : ∃ before usable after,
      heap.chunks = before ++ ⟨usable + headerSize, true⟩ :: after ∧
        Payload total s (s.unit (place + headerSize)) before usable after := by
  have wide : 0 < size := represents.valid.positive _ (tileAt_mem here)
  obtain ⟨before, after, chunks, rfl⟩ := allots_split here
  have whole : size - headerSize + headerSize = size := Nat.sub_add_cancel wide
  refine ⟨before, size - headerSize, after, by rw [whole]; exact chunks, ?_, rfl,
    usableSizeImpl_ok represents here⟩
  rw [represents.chunks, whole]
  exact chunks

theorem Represents.allocated (represents : Represents total s heap) (place size : Nat) :
    s.Allocated total (s.unit (place + headerSize)) size ↔ heap.Allots place size := by
  rw [State.Allocated, represents.chunks]
  constructor
  · rintro ⟨other, same, here⟩
    rw [unit_inj] at same
    obtain rfl : place = other := by omega
    exact here
  · exact fun here => ⟨place, rfl, here⟩

/-- An effect that takes one chunk for another frees the old one. -/
theorem Effect.allocated {place size place' size' : Nat}
    (effect : Effect total heap heap' (some (place, size)) (some (place', size')) s s')
    (represents : Represents total s heap) (pointer length : Nat) :
    s'.Allocated total pointer length ↔
      (pointer = s.unit (place' + headerSize) ∧ length = size') ∨
        (pointer ≠ s.unit (place + headerSize) ∧ s.Allocated total pointer length) := by
  have shown : ∀ other, s'.Allocated total (s.unit (other + headerSize)) length ↔
      heap'.Allots other length := by
    intro other
    rw [← effect.keeps.unit]
    exact effect.represents.allocated other length
  constructor
  · rintro ⟨other, rfl, here⟩
    rw [effect.keeps.unit, represents.allocated, Ne, unit_inj, unit_inj]
    rw [effect.represents.chunks] at here
    rcases (effect.allots other length).mp here with same | rest
    · cases same
      exact Or.inl ⟨rfl, rfl⟩
    · obtain ⟨there, elsewhere⟩ := (rest_some _ _ _ _ _).mp rest
      exact Or.inr ⟨fun same => elsewhere (by omega), there⟩
  · rintro (⟨rfl, rfl⟩ | ⟨elsewhere, other, rfl, here⟩)
    · exact (shown place').mpr ((effect.allots _ _).mpr (Or.inl rfl))
    · rw [Ne, unit_inj] at elsewhere
      rw [represents.chunks] at here
      refine (shown other).mpr ((effect.allots _ _).mpr (Or.inr ((rest_some _ _ _ _ _).mpr ⟨here, ?_⟩)))
      rintro rfl
      exact elsewhere rfl

theorem Represents.sameBin (represents : Represents total s heap)
    (represents' : Represents total s' heap') (base : s'.baseAddress = s.baseAddress) {bin : Nat}
    (small : bin < (Bins.binConfig build.target).binCount) (same : heap'.bins bin = heap.bins bin) :
    SameBin total bin s s' := by
  have unit : s'.unit = s.unit := by
    funext place
    rw [State.unit, State.unit, base]
  constructor
  · rw [represents'.freeList small (Nat.le_refl _), represents.freeList small (Nat.le_refl _), same, unit]
  · rw [Bool.eq_iff_iff, represents'.binBit small, represents.binBit small, same]
  · intro pointer member
    rw [represents.freeList small (Nat.le_refl _)] at member
    obtain ⟨place, listed, rfl⟩ := List.mem_map.mp member
    obtain ⟨left, right, split⟩ := List.append_of_mem listed
    have here := linked_at left (split ▸ represents.index.linked bin)
    have there := linked_at left (split ▸ same ▸ represents'.index.linked bin)
    rw [link_congr base] at there
    have next : view s' .nextInList place = view s .nextInList place := there.2.trans here.2.symm
    have prev : view s' .prevInList place = view s .prevInList place := there.1.trans here.1.symm
    rw [view, view, unit] at next prev
    exact ⟨next, prev⟩

theorem Represents.resized (represents : Represents total s heap)
    (here : heap.chunks = before ++ ⟨usable + headerSize, true⟩ :: after) {newUsable : Nat}
    (represents' : Represents total s' heap') (base : s'.baseAddress = s.baseAddress)
    (chunks : heap'.chunks = (heap.resize build.target (span Chunk.size before)
      (newUsable + headerSize)).chunks)
    (bins : heap'.bins = (heap.resize build.target (span Chunk.size before)
      (newUsable + headerSize)).bins) :
    Resized total (s.unit (span Chunk.size before + headerSize)) before usable newUsable after s s' := by
  obtain ⟨shape, others⟩ := Heap.resize_shape represents.valid here (newUsable + headerSize)
  have width : usable + headerSize + freeBehind after - (newUsable + headerSize) =
      usable + freeBehind after - newUsable := by omega
  rw [width] at shape others
  have unit : s'.unit (span Chunk.size before + headerSize) =
      s.unit (span Chunk.size before + headerSize) := by rw [State.unit, State.unit, base]
  have allots : heap'.Allots (span Chunk.size before) (newUsable + headerSize) := by
    rw [Heap.Allots, chunks, shape]
    exact chunkAt_here rfl
  constructor
  · rw [← unit]
    exact usableSizeImpl_ok represents' allots
  · rw [represents'.chunks, chunks, shape]
  · exact represents'.wellFormed
  · intro bin small otherOld otherNew
    apply represents.sameBin represents' base small
    rw [bins]
    exact others bin otherOld otherNew

end Observing

section Growing

def Grants (E : Env σ) (s : AllocatorState build σ) (need : Nat) : Prop :=
  s.allocatedSpace < need → (E.expandMemoryUntil s.env s.baseAddress need).1 = true

/-- What `grow_inplace` does with a payload and a new size. -/
structure GrowsExactly (E : Env σ) (total : Nat) (s : AllocatorState build σ) (pointer : Nat)
    (before : List Chunk) (usable : Nat) (after : List Chunk) (newSize : Nat)
    (result : Option Nat) (s' : AllocatorState build σ) : Prop where
  success : result.isSome = true ↔ newSize + headerSize < 2 ^ sizeBits ∧
    (newSize ≤ usable ∨ ∃ next rest, after = ⟨next, false⟩ :: rest ∧ newSize ≤ usable + next ∧
      Grants E s (span Chunk.size before + (newSize + headerSize) +
        if newSize < usable + next then freeChunkHeaderSize else 0))
  reported : ∀ r, result = some r → newSize ≤ r ∧ usableSizeImpl build pointer s' = .ok (r, s')
  covered : ∀ r, result = some r → newSize ≤ usable → r = usable ∧ s' = s
  grown : ∀ r, result = some r → usable < newSize →
    r = newSize ∧ Resized total pointer before usable newSize after s s'

variable {heap : Heap} {before after : List Chunk} {usable newSize : Nat}

theorem ask_grants (need : Nat) : (s.ask E need).1 = true ↔ Grants E s need := by
  rw [State.ask, Grants]
  by_cases short : s.allocatedSpace < need
  · rw [if_pos short]
    simp [short]
  · rw [if_neg short]
    simp [short]

theorem Heap.expand_resize {target : Target} (valid : heap.Valid target total)
    (here : heap.chunks = before ++ ⟨usable + headerSize, true⟩ :: after) (need new : Nat) :
    ((heap.expand need).resize target (span Chunk.size before) new).chunks =
        (heap.resize target (span Chunk.size before) new).chunks ∧
      ((heap.expand need).resize target (span Chunk.size before) new).bins =
        (heap.resize target (span Chunk.size before) new).bins := by
  have split := Heap.split_here valid here
  simp only [Heap.resize, Heap.expand, split]
  exact ⟨rfl, rfl⟩

theorem growsExactly_none {pointer : Nat} {s' : AllocatorState build σ}
    (failing : ¬ (newSize + headerSize < 2 ^ sizeBits ∧
      (newSize ≤ usable ∨ ∃ next rest, after = ⟨next, false⟩ :: rest ∧ newSize ≤ usable + next ∧
        Grants E s (span Chunk.size before + (newSize + headerSize) +
          if newSize < usable + next then freeChunkHeaderSize else 0)))) :
    GrowsExactly E total s pointer before usable after newSize none s' := by
  constructor
  · simpa using failing
  all_goals
    intro r impossible
    cases impossible

theorem growInplace_cases (constant : ∀ e, E.totalSpace e = total)
    (represents : Represents total s heap)
    (here : heap.chunks = before ++ ⟨usable + headerSize, true⟩ :: after) (newSize : Nat) :
    ∃ result s', growInplace build E (s.unit (span Chunk.size before + headerSize)) newSize s =
        .ok (result, s') ∧
      GrowsExactly E total s (s.unit (span Chunk.size before + headerSize)) before usable after
        newSize result s' := by
  have settles := growInplace_ok constant represents here newSize
  rw [Heap.growth, Heap.split_here represents.valid here] at settles
  simp only at settles
  by_cases overflow : newSize + headerSize ≥ 2 ^ sizeBits
  · rw [if_pos overflow] at settles
    exact ⟨none, s, settles, growsExactly_none fun fits => by omega⟩
  rw [if_neg overflow] at settles
  by_cases covered : usable + headerSize ≥ newSize + headerSize
  · have allots : heap.Allots (span Chunk.size before) (usable + headerSize) := chunkAt_here here
    refine ⟨some usable, s, growInplace_covered constant represents here (by omega) covered, ?_⟩
    have reads := usableSizeImpl_ok represents allots
    constructor
    · simp
      omega
    · rintro r ⟨⟩
      exact ⟨by omega, reads⟩
    · rintro r ⟨⟩ _
      exact ⟨rfl, rfl⟩
    · intro r _ larger
      omega
  rw [if_neg covered] at settles
  cases after with
  | nil =>
      refine ⟨none, s, settles, growsExactly_none ?_⟩
      rintro ⟨-, small | ⟨next, rest, impossible, -⟩⟩
      · omega
      · cases impossible
  | cons chunk rest =>
      obtain ⟨next, allocated⟩ := chunk
      cases allocated with
      | true =>
          refine ⟨none, s, settles, growsExactly_none ?_⟩
          rintro ⟨-, small | ⟨next', rest', impossible, -⟩⟩
          · omega
          · cases impossible
      | false =>
          simp only at settles
          by_cases short : usable + headerSize + next < newSize + headerSize
          · rw [if_pos short] at settles
            refine ⟨none, s, settles, growsExactly_none ?_⟩
            rintro ⟨-, small | ⟨next', rest', same, enough, -⟩⟩
            · omega
            · cases same
              omega
          rw [if_neg short] at settles
          obtain ⟨inside, settled⟩ := settles
          -- a remainder only counts when it is not empty, and then its header is asked for as well
          have need : endOffset (span Chunk.size before + (newSize + headerSize))
              (usable + headerSize + next - (newSize + headerSize)) =
              span Chunk.size before + (newSize + headerSize) +
                if newSize < usable + next then freeChunkHeaderSize else 0 := by
            rw [endOffset]
            split <;> split <;> omega
          have asks := ask_grants (E := E) (s := s) (endOffset (span Chunk.size before + (newSize + headerSize))
            (usable + headerSize + next - (newSize + headerSize)))
          cases answer : (s.ask E (endOffset (span Chunk.size before + (newSize + headerSize))
              (usable + headerSize + next - (newSize + headerSize)))).1 with
          | false =>
              rw [answer, if_neg Bool.false_ne_true] at settled
              refine ⟨none, _, settled, growsExactly_none ?_⟩
              rintro ⟨-, small | ⟨next', rest', same, enough, grants⟩⟩
              · omega
              · cases same
                rw [← need] at grants
                rw [asks.mpr grants] at answer
                cases answer
          | true =>
              rw [answer, if_pos rfl] at settled
              obtain ⟨s', run, represents', frame⟩ := settled
              have base : s'.baseAddress = s.baseAddress :=
                frame.baseAddress.trans (ask_baseAddress E s _)
              obtain ⟨chunks, bins⟩ := Heap.expand_resize represents.valid here
                (endOffset (span Chunk.size before + (newSize + headerSize))
                  (usable + headerSize + next - (newSize + headerSize))) (newSize + headerSize)
              have resized := represents.resized here represents' base chunks bins
              rw [Nat.add_sub_cancel] at run
              refine ⟨some newSize, s', run, ?_, ?_, ?_, ?_⟩
              · rw [asks, need] at answer
                simp only [Option.isSome_some, true_iff]
                exact ⟨by omega, Or.inr ⟨next, rest, rfl, by omega, answer⟩⟩
              · rintro r ⟨⟩
                exact ⟨Nat.le_refl _, resized.size⟩
              · intro r _ small
                omega
              · rintro r ⟨⟩ _
                exact ⟨rfl, resized⟩

end Growing

section Shrinking

/-- What `shrink_inplace` does with a payload and a new size. -/
structure ShrinksExactly (E : Env σ) (total : Nat) (s : AllocatorState build σ) (pointer : Nat)
    (before : List Chunk) (usable : Nat) (after : List Chunk) (newSize : Nat) : Prop where
  empty : newSize = 0 → shrinkInplace build E pointer newSize s = free build E pointer s
  covered : newSize ≠ 0 → usable ≤ newSize → shrinkInplace build E pointer newSize s = .ok ((), s)
  cut : newSize ≠ 0 → newSize < usable → ∃ s', shrinkInplace build E pointer newSize s = .ok ((), s') ∧
    Resized total pointer before usable newSize after s s'

variable {heap : Heap} {before after : List Chunk} {usable newSize : Nat}

theorem shrinkInplace_cases (constant : ∀ e, E.totalSpace e = total)
    (represents : Represents total s heap)
    (here : heap.chunks = before ++ ⟨usable + headerSize, true⟩ :: after)
    (bound : newSize + headerSize < 2 ^ sizeBits) :
    ShrinksExactly E total s (s.unit (span Chunk.size before + headerSize)) before usable after
      newSize := by
  constructor
  · rintro rfl
    rfl
  · intro nonempty covered
    exact shrinkInplace_covered constant represents here nonempty bound (by omega)
  · intro nonempty less
    obtain ⟨s', run, represents', frame⟩ :=
      shrinkInplace_ok constant represents here nonempty bound
    have shrunk : heap.shrink build.target (span Chunk.size before) newSize =
        heap.resize build.target (span Chunk.size before) (newSize + headerSize) := by
      simp only [Heap.shrink, Heap.split_here represents.valid here]
      rw [if_neg (by omega)]
    exact ⟨s', run, represents.resized here represents' frame.baseAddress (by rw [shrunk])
      (by rw [shrunk])⟩

theorem storeFinalPrevSize_size {s' : AllocatorState build σ} (place endOfSpace bytes prevChunkSize : Nat)
    (ran : storeFinalPrevSize build (s.unit place) endOfSpace bytes prevChunkSize s = .ok ((), s')) :
    view s' .size = view s .size := by
  rw [storeFinalPrevSize] at ran
  split at ran
  · cases checked : paranoidCheckAccess build (s.unit place) bytes s with
    | error fault =>
        rw [bind_error checked] at ran
        cases ran
    | ok done =>
        obtain ⟨_, s₁⟩ := done
        have reads : Maintains (fun t => t = s) (paranoidCheckAccess build (s.unit place) bytes) :=
          inferInstance
        obtain rfl : s₁ = s := reads.keeps s _ s₁ rfl checked
        rw [bind_ok checked, store] at ran
        split at ran
        · cases ran
        · split at ran
          · cases ran
            exact view_put_other s₁ place prevChunkSize (by decide)
          · cases ran
  · cases ran
    rfl

theorem Opened.overwrite {gap : Gap} (opened : Opened total s gap) {place : Nat}
    (low : gap.start ≤ place) (high : place < gap.start + gap.size) (value : Nat) :
    Opened total (put s .size place value) gap := by
  have others : ∀ field, field ≠ .size → view (put s .size place value) field = view s field :=
    fun field other => view_put_other s place value (Ne.symm other)
  have kept : ∀ {start before : Nat} {chunks : List Chunk},
      (∀ p c, ChunkAt start chunks p c → p ≠ place) → Laid Chunk.size (Tagged s) start before chunks →
        Laid Chunk.size (Tagged (put s .size place value)) start before chunks := by
    intro start before chunks apart laid
    refine laid_kept (fun p c here => ⟨by rw [others _ (by decide)], ?_⟩) laid
    refine view_kept rfl fun a above below => writeWord_outside _ _ _ _ _ ?_
    have fit := field_fits .size build.target
    have different := apart p c here
    simp only [State.unit, put] at *
    omega
  obtain ⟨previous, right⟩ := opened.right
  refine ⟨opened.placed.congr rfl rfl rfl, opened.valid,
    opened.index.congr rfl rfl rfl rfl (others _ (by decide)) (others _ (by decide)),
    kept (fun p c here => ?_) opened.left, previous, kept (fun p c here => ?_) right⟩
  · have before := (Gap.before_lt opened.valid here).1
    omega
  · have behind := Gap.after_ge here
    omega

/-- A shrink by the largest size wraps to an empty chunk, or panics. -/
theorem shrinkInplace_overflow (constant : ∀ e, E.totalSpace e = total)
    (represents : Represents total s heap)
    (here : heap.chunks = before ++ ⟨usable + headerSize, true⟩ :: after) :
    shrinkInplace build E (s.unit (span Chunk.size before + headerSize)) (2 ^ sizeBits - 1) s ≠
      .ok ((), s) := by
  intro ran
  have placed := represents.placed
  have small := placed.small
  have holds := represents.holds here
  have granted := holds.granted
  have tiles := holds.tiles
  simp only [headerSize, unitLimit] at granted tiles small
  have inside : span Chunk.size before < s.allocatedSpace := by omega
  have nonempty : 2 ^ sizeBits - 1 ≠ 0 := by decide
  by_cases checks : build.overflowChecks = true
  · have panics : Size.uncheckedAdd build (2 ^ sizeBits - 1) headerSize = .error .panic := by
      rw [Size.uncheckedAdd, checks]
      decide
    rw [shrinkInplace, if_neg (by simpa [Size.isEmpty] using nonempty),
      bind_error (lift_error panics s)] at ran
    cases ran
  have wraps : Size.uncheckedAdd build (2 ^ sizeBits - 1) headerSize = .ok 0 := by
    rw [Size.uncheckedAdd, Bool.eq_false_iff.mpr checks]
    decide
  rw [shrinkInplace_reads constant represents here nonempty wraps, if_neg (by simp [headerSize]),
    bind_ok (lift_ok (uncheckedSub_ok (Nat.zero_le _)) s), bind_ok (store_ok placed inside _ _)] at ran
  -- The chunk is given up, as in `free`, but its size says that it is empty.
  have opened : Opened total (put s .size (span Chunk.size before) (ChunkSize.newAllocated 0))
      ⟨before, usable + headerSize, after, heap.bins⟩ :=
    (represents.openAt here).overwrite (Nat.le_refl _) (by simp [headerSize]) _
  obtain ⟨s₂, merge, opened₂, frame₂⟩ := mergeNextFree_ok opened
  have before₂ := Gap.absorbNext_before build.target ⟨before, usable + headerSize, after, heap.bins⟩
  have wide₂ := Gap.absorbNext_size build.target ⟨before, usable + headerSize, after, heap.bins⟩
  generalize (Gap.mk before (usable + headerSize) after heap.bins).absorbNext build.target = gap at *
  have start₂ : gap.start = span Chunk.size before := by rw [Gap.start, before₂]
  have end₂ := opened₂.end_le
  have space₂ : s₂.allocatedSpace = s.allocatedSpace := frame₂.allocatedSpace
  have base₂ : s₂.unit = s.unit := by
    funext place
    exact frame₂.unit place
  simp only [headerSize] at wide₂
  rw [start₂] at end₂
  have unlisted : ¬ Listed gap.bins (span Chunk.size before) := by
    rintro ⟨bin, member⟩
    obtain ⟨other, there, -⟩ := (opened₂.valid.registered bin _).mp member
    exact Gap.not_chunkAt opened₂.valid (by omega) (by omega) there
  have positive : 0 < gap.size := by omega
  have narrow : gap.size < unitLimit := by simp only [unitLimit]; omega
  obtain ⟨s₃, register, -, frame₃, -, sizes₃⟩ := registerFreeSpace_ok opened₂.placed opened₂.index
    positive narrow (show 0 < unitLimit by decide) unlisted (by omega)
  have unit₃ : ∀ place, s₃.unit place = s.unit place := fun place => by
    rw [frame₃.unit, base₂]
  rw [base₂] at register
  have merged : mergeNextFree build (s.unit (span Chunk.size before + (usable + headerSize)))
      (s.unit total) (usable + headerSize)
      (put s .size (span Chunk.size before) (ChunkSize.newAllocated 0)) = .ok (gap.size, s₂) := merge
  have ending : (put s .size (span Chunk.size before) (ChunkSize.newAllocated 0)).unit total =
      s.unit total := rfl
  rw [bind_ok (endOfAddressSpace_ok opened.placed constant), ending, Nat.sub_zero,
    add_units placed _ _ (by simp only [headerSize]; omega), bind_ok merged,
    add_units placed _ _ (by omega), Nat.add_zero, bind_ok register,
    add_units placed _ _ end₂, ← unit₃ (span Chunk.size before + gap.size)] at ran
  cases closing : storeFinalPrevSize build (s₃.unit (span Chunk.size before + gap.size)) (s.unit total)
      chunkHeaderBytes gap.size s₃ with
  | error fault =>
      rw [bind_error closing] at ran
      cases ran
  | ok done =>
      obtain ⟨_, s₄⟩ := done
      rw [bind_ok closing] at ran
      have reads : ∀ chunk nextChunk finalChunk,
          Maintains (fun t => view t .size = view s₄ .size) (do
            paranoidCheckChunk build E chunk
            paranoidCheckChunk build E nextChunk
            paranoidCheckChunk build E finalChunk) := fun _ _ _ => inferInstance
      have unchanged : view s .size = view s₄ .size := (reads _ _ _).keeps s₄ _ s rfl ran
      have size := congrFun (unchanged.trans ((storeFinalPrevSize_size _ _ _ _ closing).trans sizes₃))
        (span Chunk.size before)
      -- A free chunk's tag is even, an allocated one's is odd.
      rw [holds.tag, Function.update_self] at size
      simp [Chunk.tag] at size
      omega

end Shrinking

section Sizes

variable {memory : Memory} {session : Session build σ} {handle pointer : Nat}

/-- The chunk that a live pointer of a session belongs to. -/
theorem Sound.serves (sound : Sound total memory session) (live : session.live handle = some pointer) :
    ∃ heap place size, Serves total memory session heap ∧ heap.Allots place size ∧
      pointer = session.allocator.unit (place + headerSize) := by
  rcases sound with idle | ⟨heap, serves⟩
  · rw [idle.live handle] at live
    cases live
  · obtain ⟨place, size, here, rfl⟩ := serves.held handle pointer live
    exact ⟨heap, place, size, serves, here, rfl⟩

theorem Reached.serves (lawful : E.Lawful build.target total) (inplace : build.reallocInplace = true)
    (reached : Reached build E memory session) (live : session.live handle = some pointer) :
    ∃ heap place size, Serves total memory session heap ∧ heap.Allots place size ∧
      pointer = session.allocator.unit (place + headerSize) :=
  (reached.sound lawful inplace).serves live

/-- `grow_inplace` succeeds exactly when it can, and changes nothing else. -/
theorem growInplace_exact (lawful : E.Lawful build.target total)
    (inplace : build.reallocInplace = true) (reached : Reached build E memory session)
    (live : session.live handle = some pointer) (newSize : Nat) :
    ∃ before usable after, Payload total session.allocator pointer before usable after ∧
      ∃ result s', growInplace build E pointer newSize session.allocator = .ok (result, s') ∧
        GrowsExactly E total session.allocator pointer before usable after newSize result s' := by
  obtain ⟨heap, place, size, serves, here, rfl⟩ := reached.serves lawful inplace live
  obtain ⟨before, usable, after, chunks, payload⟩ := serves.represents.payload here
  refine ⟨before, usable, after, payload, ?_⟩
  rw [payload.address]
  exact growInplace_cases lawful.constant serves.represents chunks newSize

theorem growInplace_exact_sample : ∃ session pointer outcome,
    step sampleEnv (.alloc 1 2) sampleStart = .ok (outcome, session) ∧
      ∃ before usable after, Payload 8 session.allocator pointer before usable after ∧
        ∃ result s', growInplace sampleBuild sampleEnv pointer 4 session.allocator = .ok (result, s') ∧
          GrowsExactly sampleEnv 8 session.allocator pointer before usable after 4 result s' := by
  obtain ⟨session, pointer, outcome, run, live, reached⟩ := sample_allocated
  exact ⟨session, pointer, outcome, run, growInplace_exact sample_lawful rfl reached live 4⟩

/-- `shrink_inplace` does what it says for every size but the largest. -/
theorem shrinkInplace_exact_iff (lawful : E.Lawful build.target total)
    (inplace : build.reallocInplace = true) (reached : Reached build E memory session)
    (live : session.live handle = some pointer) {newSize : Nat} (sized : newSize < 2 ^ sizeBits) :
    ∃ before usable after, Payload total session.allocator pointer before usable after ∧
      (ShrinksExactly E total session.allocator pointer before usable after newSize ↔
        newSize ≠ 2 ^ sizeBits - 1) := by
  obtain ⟨heap, place, size, serves, here, rfl⟩ := reached.serves lawful inplace live
  have represents := serves.represents
  obtain ⟨before, usable, after, chunks, payload⟩ := represents.payload here
  refine ⟨before, usable, after, payload, ?_⟩
  rw [payload.address]
  constructor
  · rintro shrinks rfl
    have tiles := (represents.holds chunks).tiles
    have small := represents.placed.small
    simp only [unitLimit] at small
    exact shrinkInplace_overflow lawful.constant represents chunks
      (shrinks.covered (by decide) (by simp only [sizeBits]; omega))
  · intro smaller
    exact shrinkInplace_cases lawful.constant represents chunks
      (by simp only [headerSize, sizeBits] at *; omega)

theorem shrinkInplace_exact_sample : ∃ session pointer outcome,
    step sampleEnv (.alloc 1 2) sampleStart = .ok (outcome, session) ∧
      ∃ before usable after, Payload 8 session.allocator pointer before usable after ∧
        (ShrinksExactly sampleEnv 8 session.allocator pointer before usable after 1 ↔
          1 ≠ 2 ^ sizeBits - 1) := by
  obtain ⟨session, pointer, outcome, run, live, reached⟩ := sample_allocated
  exact ⟨session, pointer, outcome, run,
    shrinkInplace_exact_iff sample_lawful rfl reached live (by decide)⟩

/-- A build without overflow checks, in which the largest size wraps. -/
def uncheckedBuild : Build := ⟨.x86_64, true, false, false⟩

def keepsTwoUnits (build : Build) (pointer : Nat) (s : AllocatorState build Unit) : Bool :=
  check (fun shrunk => check (fun usable => usable.1 == 2) (usableSizeImpl build pointer shrunk.2))
    (shrinkInplace build sampleEnv pointer (2 ^ sizeBits - 1) s)

theorem largest_fails {session : Session build Unit} {pointer : Nat}
    (sized : check (fun usable => usable.1 == 2)
      (usableSizeImpl build pointer session.allocator) = true)
    (lost : keepsTwoUnits build pointer session.allocator = false) :
    ¬ ∃ before usable after, Payload 8 session.allocator pointer before usable after ∧
      ShrinksExactly sampleEnv 8 session.allocator pointer before usable after (2 ^ sizeBits - 1) := by
  rintro ⟨before, usable, after, payload, shrinks⟩
  have two : usable = 2 := by
    rw [payload.size] at sized
    simpa [check] using sized
  subst two
  rw [keepsTwoUnits, shrinks.covered (by decide) (by decide)] at lost
  simp [check, payload.size] at lost

/-- With overflow checks the call panics; without them it gives the chunk up. -/
theorem shrinkInplace_largest :
    (∃ session outcome, step sampleEnv (.alloc 1 2) sampleStart = .ok (outcome, session) ∧
      session.live 0 = some 64 ∧
      ¬ ∃ before usable after, Payload 8 session.allocator 64 before usable after ∧
        ShrinksExactly sampleEnv 8 session.allocator 64 before usable after (2 ^ sizeBits - 1)) ∧
    ∃ session outcome, step sampleEnv (.alloc 1 2)
        (Session.start uncheckedBuild () fun _ => 0) = .ok (outcome, session) ∧
      session.live 0 = some 64 ∧
      ¬ ∃ before usable after, Payload 8 session.allocator 64 before usable after ∧
        ShrinksExactly sampleEnv 8 session.allocator 64 before usable after (2 ^ sizeBits - 1) := by
  constructor
  · obtain ⟨⟨outcome, session⟩, run, passed⟩ := check_ok
      (show check (fun result => result.2.live 0 == some 64 &&
          check (fun usable => usable.1 == 2) (usableSizeImpl sampleBuild 64 result.2.allocator) &&
            !keepsTwoUnits sampleBuild 64 result.2.allocator)
        (step sampleEnv (.alloc 1 2) sampleStart) = true by decide +kernel)
    simp only [Bool.and_eq_true, Bool.not_eq_true', beq_iff_eq] at passed
    exact ⟨session, outcome, run, passed.1.1, largest_fails passed.1.2 passed.2⟩
  · obtain ⟨⟨outcome, session⟩, run, passed⟩ := check_ok
      (show check (fun result => result.2.live 0 == some 64 &&
          check (fun usable => usable.1 == 2) (usableSizeImpl uncheckedBuild 64 result.2.allocator) &&
            !keepsTwoUnits uncheckedBuild 64 result.2.allocator)
        (step sampleEnv (.alloc 1 2) (Session.start uncheckedBuild () fun _ => 0)) = true by
          decide +kernel)
    simp only [Bool.and_eq_true, Bool.not_eq_true', beq_iff_eq] at passed
    exact ⟨session, outcome, run, passed.1.1, largest_fails passed.1.2 passed.2⟩

end Sizes

end Picoalloc
