import Picoalloc.Policy

/-!
The chunks that a heap allots, and how the operations change them. Free space comes
and goes around them: an operation allots what it allotted before except at the
chunk that it is about.
-/

namespace Picoalloc
open Tilings

abbrev Heap.Allots (heap : Heap) (place size : Nat) : Prop := ChunkAt 0 heap.chunks place ⟨size, true⟩

section Gaps

variable {gap : Gap} (target : Target)

theorem Gap.fill_start (gap : Gap) : (gap.fill target).start = gap.start + gap.size := by
  rw [Gap.fill, Gap.placeFree]
  split
  · omega
  · simp [Gap.place, Gap.start]

theorem Gap.fill_size (gap : Gap) : (gap.fill target).size = 0 := by
  rw [Gap.fill, Gap.placeFree]
  split
  · assumption
  · simp [Gap.place]

theorem Gap.fill_after (gap : Gap) : (gap.fill target).after = gap.after := by
  rw [Gap.fill, Gap.placeFree]
  split <;> rfl

theorem Gap.fill_last (gap : Gap) (nonempty : gap.size ≠ 0) :
    lastSize Chunk.size 0 (gap.fill target).before = gap.size := by
  simp [Gap.fill, Gap.placeFree, nonempty, Gap.place, lastSize]

theorem Gap.fill_before (gap : Gap) : ∃ rest, (gap.fill target).before = gap.before ++ rest := by
  rw [Gap.fill, Gap.placeFree]
  split
  · exact ⟨[], by simp⟩
  · exact ⟨_, rfl⟩

theorem Gap.fill_separated (gap : Gap) (right : gap.ClosedRight) :
    ∀ last ∈ (gap.fill target).before.getLast?, ∀ first ∈ (gap.fill target).after.head?,
      Separated last first := by
  intro last atEnd first atHead
  rw [Gap.fill_after] at atHead
  exact Or.inr (right first atHead)

theorem Gap.placeFree_chunkAt (size : Nat) (fits : size ≤ gap.size) (p : Nat) (c : Chunk)
    (here : gap.chunkAt p c) : (gap.placeFree target size).chunkAt p c := by
  rw [Gap.placeFree]
  split
  · exact here
  · exact (Gap.place_chunkAt target ⟨size, false⟩ fits p c).mpr (Or.inr here)

theorem Gap.placeFree_start (gap : Gap) (size : Nat) :
    (gap.placeFree target size).start = gap.start + size := by
  rw [Gap.placeFree]
  split
  · omega
  · simp [Gap.place, Gap.start]

theorem Gap.placeFree_size (gap : Gap) (size : Nat) :
    (gap.placeFree target size).size = gap.size - size := by
  rw [Gap.placeFree]
  split
  · omega
  · rfl

theorem Gap.placeFree_after (gap : Gap) (size : Nat) :
    (gap.placeFree target size).after = gap.after := by
  rw [Gap.placeFree]
  split <;> rfl

theorem Gap.absorbNext_size (gap : Gap) : gap.size ≤ (gap.absorbNext target).size := by
  rw [Gap.absorbNext]
  split
  · exact Nat.le_add_right _ _
  · exact Nat.le_refl _

theorem Gap.absorbPrev_size (gap : Gap) : gap.size ≤ (gap.absorbPrev target).size := by
  rw [Gap.absorbPrev]
  split
  · exact Nat.le_add_right _ _
  · exact Nat.le_refl _

theorem Gap.absorbPrev_start (gap : Gap) : (gap.absorbPrev target).start ≤ gap.start := by
  obtain ⟨before, size, after, bins⟩ := gap
  rcases List.eq_nil_or_concat before with rfl | ⟨init, ⟨prev, allocated⟩, rfl⟩
  · exact Nat.le_refl _
  · rw [List.concat_eq_append]
    cases allocated
    · rw [Gap.absorbPrev_concat]
      simp [Gap.start]
    · simp [Gap.absorbPrev, Gap.start]

theorem Gap.absorbNext_resize {init : List Chunk} {old new : Nat}
    (ends : gap.before = init ++ [⟨old, true⟩]) (fits : new ≤ gap.size + old) :
    (gap.resize init old new).absorbNext target = (gap.absorbNext target).resize init old new := by
  obtain ⟨before, size, after, bins⟩ := gap
  simp only at ends fits
  subst ends
  match after with
  | [] => rfl
  | ⟨_, true⟩ :: _ => rfl
  | ⟨next, false⟩ :: rest =>
      have room : size + old - new + next = size + next + old - new := by omega
      have place : span Chunk.size init + new + (size + old - new) =
          span Chunk.size init + old + size := by omega
      simp only [Gap.resize, Gap.absorbNext, Gap.start, span_append, span_cons, span_nil,
        Nat.add_zero, room, place]

end Gaps

section Allots

variable {gap : Gap} {target : Target} {total space p n : Nat}

theorem Gap.heap_chunkAt (filled : gap.size = 0) (c : Chunk) :
    ChunkAt 0 (gap.heap space).chunks p c ↔ gap.chunkAt p c := by
  simp [Gap.heap, Gap.chunkAt, Gap.start, filled, tileAt_append]

/-- Merging with free chunks and placing free ones does not change what is allotted. -/
theorem Gap.absorbNext_allots :
    (gap.absorbNext target).chunkAt p ⟨n, true⟩ ↔ gap.chunkAt p ⟨n, true⟩ :=
  ⟨Gap.absorbNext_chunkAt p _, Gap.absorbNext_allocated target p n⟩

theorem Gap.absorbPrev_allots :
    (gap.absorbPrev target).chunkAt p ⟨n, true⟩ ↔ gap.chunkAt p ⟨n, true⟩ := by
  refine ⟨fun here => ?_, Gap.absorbPrev_allocated target p n⟩
  obtain ⟨before, size, after, bins⟩ := gap
  rcases List.eq_nil_or_concat before with rfl | ⟨init, ⟨prev, allocated⟩, rfl⟩
  · exact here
  rw [List.concat_eq_append] at here ⊢
  cases allocated with
  | true =>
      rw [Gap.absorbPrev] at here
      simpa using here
  | false =>
      rw [Gap.absorbPrev_concat] at here
      have ends : span Chunk.size (init ++ [⟨prev, false⟩]) + size =
          span Chunk.size init + (size + prev) := by
        simp only [span_append, span_cons, span_nil]
        omega
      refine here.imp (fun early => (tileAt_append _ _ _ _ _).mpr (Or.inl early)) fun late => ?_
      simpa only [Gap.start, ends] using late

theorem Gap.placeFree_allots {size : Nat} (fits : size ≤ gap.size) :
    (gap.placeFree target size).chunkAt p ⟨n, true⟩ ↔ gap.chunkAt p ⟨n, true⟩ := by
  rw [Gap.placeFree]
  split
  · exact Iff.rfl
  · rw [Gap.place_chunkAt target ⟨size, false⟩ fits]
    simp

theorem Gap.fill_allots : ((gap.fill target).heap space).Allots p n ↔ gap.chunkAt p ⟨n, true⟩ := by
  rw [Heap.Allots, Gap.heap_chunkAt (Gap.fill_size target gap), Gap.fill,
    Gap.placeFree_allots (Nat.le_refl _)]

theorem Gap.resize_allots (valid : gap.Valid target total space) {init : List Chunk} {old new : Nat}
    (ends : gap.before = init ++ [⟨old, true⟩]) (fits : new ≤ gap.size + old) :
    (gap.resize init old new).chunkAt p ⟨n, true⟩ ↔
      (p = span Chunk.size init ∧ n = new) ∨ gap.chunkAt p ⟨n, true⟩ ∧ p ≠ span Chunk.size init := by
  have start : gap.start = span Chunk.size init + old := by simp [Gap.start, ends]
  have wide : 0 < old := valid.positive ⟨old, true⟩ (Or.inl (by simp [ends]))
  have early : ∀ {c}, ChunkAt 0 init p c → p ≠ span Chunk.size init := fun {c} here same => by
    have positive := valid.positive c (Or.inl (ends ▸ List.mem_append_left _ (tileAt_mem here)))
    have := (tileAt_bounds here).2
    omega
  have late : ∀ {c}, ChunkAt (gap.start + gap.size) gap.after p c → p ≠ span Chunk.size init :=
    fun here same => by
      have := Gap.after_ge here
      omega
  rw [Gap.resize_chunkAt ends fits, Gap.chunkAt, ends]
  simp only [tileAt_append, tileAt_cons, tileAt_nil, or_false, Nat.zero_add, Chunk.mk.injEq, and_true]
  constructor
  · rintro (here | here | here)
    · exact Or.inr ⟨Or.inl (Or.inl here), early here⟩
    · exact Or.inl here
    · exact Or.inr ⟨Or.inr here, late here⟩
  · rintro (here | ⟨(here | ⟨same, _⟩) | here, different⟩)
    · exact Or.inr (Or.inl here)
    · exact Or.inl here
    · exact absurd same different
    · exact Or.inr (Or.inr here)

end Allots

section Opened

variable {heap : Heap} {total : Nat} {before after : List Chunk}

def Heap.Others (heap : Heap) (place p : Nat) (chunk : Chunk) : Prop :=
  ChunkAt 0 heap.chunks p chunk ∧ p ≠ place

theorem Heap.others_gap {chunk : Chunk} (here : heap.chunks = before ++ chunk :: after) {p : Nat}
    {c : Chunk} (other : heap.Others (span Chunk.size before) p c) (bins : Nat → List Nat) :
    Gap.chunkAt { before, size := chunk.size, after, bins } p c := by
  obtain ⟨at', different⟩ := other
  rw [here] at at'
  rcases (tileAt_append 0 p c before (chunk :: after)).mp at' with early | at'
  · exact Or.inl early
  rw [Nat.zero_add] at at'
  rcases at' with ⟨same, _⟩ | late
  · exact absurd same different
  · exact Or.inr late

theorem Heap.Valid.positive_before {target : Target} {chunk : Chunk}
    (valid : heap.Valid target total) (here : heap.chunks = before ++ chunk :: after) :
    ∀ other ∈ before, 0 < other.size := fun other member =>
  valid.positive other (by rw [here]; exact List.mem_append_left _ member)

theorem Heap.split_here {target : Target} {chunk : Chunk} (valid : heap.Valid target total)
    (here : heap.chunks = before ++ chunk :: after) :
    splitAt Chunk.size (span Chunk.size before) heap.chunks = some (before, chunk, after) := by
  rw [here]
  exact splitAt_middle (valid.positive_before here)

/-- The other chunks, and the chunk at a place with some of its size. -/
def Heap.Kept (heap : Heap) (place size p : Nat) (chunk : Chunk) : Prop :=
  (p = place ∧ chunk = ⟨size, true⟩) ∨ heap.Others place p chunk

theorem Heap.kept_resize (here : heap.chunks = before ++ ⟨old, true⟩ :: after) {new : Nat}
    (fits : new ≤ old) {p n : Nat} (kept : heap.Kept (span Chunk.size before) new p ⟨n, true⟩) :
    (Gap.resize before old new ⟨before ++ [⟨old, true⟩], 0, after, heap.bins⟩).chunkAt
      p ⟨n, true⟩ := by
  rw [Gap.resize_chunkAt rfl (by simpa using fits)]
  rcases kept with same | other
  · exact Or.inr (Or.inl same)
  · rcases Heap.others_gap here other heap.bins with early | late
    · exact Or.inl early
    · refine Or.inr (Or.inr ?_)
      simpa [Gap.start] using late

theorem Heap.Valid.allots_unique {target : Target} {place n m : Nat}
    (valid : heap.Valid target total) (here : heap.Allots place n) (there : heap.Allots place m) :
    n = m := by
  have unique := tileAt_unique valid.positive here there
  cases unique
  rfl

theorem Heap.chunks_apart (heap : Heap) {p q : Nat} {c d : Chunk} (here : ChunkAt 0 heap.chunks p c)
    (there : ChunkAt 0 heap.chunks q d) : p = q ∨ p + c.size ≤ q ∨ q + d.size ≤ p := by
  rcases Nat.lt_trichotomy p q with before | same | after
  · exact Or.inr (Or.inl (tileAt_disjoint here there before))
  · exact Or.inl same
  · exact Or.inr (Or.inr (tileAt_disjoint there here after))

end Opened

section Operations

variable {heap heap' : Heap} {target : Target} {total p n : Nat} {before after : List Chunk}

theorem Heap.openAt_allots {chunk : Chunk} (valid : heap.Valid target total)
    (here : heap.chunks = before ++ chunk :: after) (bins : Nat → List Nat) :
    Gap.chunkAt { before, size := chunk.size, after, bins } p ⟨n, true⟩ ↔
      heap.Allots p n ∧ p ≠ span Chunk.size before := by
  refine ⟨fun there => ?_, fun other => Heap.others_gap here other bins⟩
  have wide := valid.positive chunk (by rw [here]; simp)
  simp only [Heap.Allots, here, tileAt_append, Nat.zero_add]
  rcases there with early | late
  · have positive := valid.positive _ (by rw [here]; exact List.mem_append_left _ (tileAt_mem early))
    have := (tileAt_bounds early).2
    refine ⟨Or.inl early, ?_⟩
    simp only at positive this
    omega
  · have := (tileAt_bounds late).1
    exact ⟨Or.inr (Or.inr late), by simp only [Gap.start] at this; omega⟩

theorem Heap.free_allots {size : Nat} (valid : heap.Valid target total)
    (here : heap.chunks = before ++ ⟨size, true⟩ :: after) :
    (heap.free target (span Chunk.size before)).Allots p n ↔
      heap.Allots p n ∧ p ≠ span Chunk.size before := by
  rw [Heap.free, Heap.split_here valid here]
  simp only [Gap.fill_allots, Gap.absorbNext_allots, Gap.absorbPrev_allots]
  exact Heap.openAt_allots valid here heap.bins

theorem Heap.seam_allots {left right : List Chunk} (here : heap.chunks = left ++ right)
    (bins : Nat → List Nat) :
    Gap.chunkAt { before := left, size := 0, after := right, bins } p ⟨n, true⟩ ↔
      heap.Allots p n := by
  simp [Heap.Allots, here, tileAt_append, Gap.chunkAt, Gap.start]

theorem Heap.resize_allots {old new : Nat} (valid : heap.Valid target total)
    (here : heap.chunks = before ++ ⟨old, true⟩ :: after)
    (fits : new ≤ ((Gap.mk (before ++ [⟨old, true⟩]) 0 after heap.bins).absorbNext target).size + old) :
    (heap.resize target (span Chunk.size before) new).Allots p n ↔
      (p = span Chunk.size before ∧ n = new) ∨ heap.Allots p n ∧ p ≠ span Chunk.size before := by
  have chunks : heap.chunks = (before ++ [⟨old, true⟩]) ++ after := by simp [here]
  have opened := Gap.absorbNext_valid (valid.seam chunks)
  rw [Heap.resize, Heap.split_here valid here]
  simp only [Gap.fill_allots]
  rw [Gap.resize_allots opened (by simp) fits, Gap.absorbNext_allots, Heap.seam_allots chunks]

theorem Heap.shrink_allots {old new : Nat} (valid : heap.Valid target total)
    (here : heap.chunks = before ++ ⟨old, true⟩ :: after) :
    (heap.shrink target (span Chunk.size before) new).Allots p n ↔
      (p = span Chunk.size before ∧ n = min old (new + headerSize)) ∨
        heap.Allots p n ∧ p ≠ span Chunk.size before := by
  simp only [Heap.shrink, Heap.split_here valid here]
  by_cases large : new + headerSize ≥ old
  · rw [if_pos large, Nat.min_eq_left large]
    by_cases same : p = span Chunk.size before
    · subst same
      have at' : heap.Allots (span Chunk.size before) old := chunkAt_here here
      refine ⟨fun there => Or.inl ⟨rfl, valid.allots_unique there at'⟩, ?_⟩
      · rintro (⟨_, rfl⟩ | ⟨_, different⟩)
        · exact at'
        · exact absurd rfl different
    · simp [same]
  · rw [if_neg large, Nat.min_eq_right (by omega)]
    exact Heap.resize_allots valid here (by omega)

theorem Heap.growth_allots {old newSize need usable : Nat} (valid : heap.Valid target total)
    (here : heap.chunks = before ++ ⟨old, true⟩ :: after)
    (grown : heap.growth target (span Chunk.size before) newSize = some (need, usable, heap')) :
    (heap'.Allots p n ↔ (p = span Chunk.size before ∧ n = usable + headerSize) ∨
        heap.Allots p n ∧ p ≠ span Chunk.size before) ∧
      usable = max (old - headerSize) newSize := by
  have wide : 0 < old := valid.positive ⟨old, true⟩ (by simp [here])
  have at' : heap.Allots (span Chunk.size before) old := chunkAt_here here
  have header : headerSize = 1 := rfl
  simp only [Heap.growth, Heap.split_here valid here] at grown
  by_cases overflow : newSize + headerSize ≥ 2 ^ sizeBits
  · rw [if_pos overflow] at grown
    cases grown
  rw [if_neg overflow] at grown
  by_cases covered : old ≥ newSize + headerSize
  · rw [if_pos covered] at grown
    cases grown
    refine ⟨?_, by omega⟩
    rw [header, Nat.sub_add_cancel wide]
    by_cases same : p = span Chunk.size before
    · subst same
      refine ⟨fun there => Or.inl ⟨rfl, valid.allots_unique there at'⟩, ?_⟩
      · rintro (⟨_, rfl⟩ | ⟨_, different⟩)
        · exact at'
        · exact absurd rfl different
    · simp [same]
  rw [if_neg covered] at grown
  cases after with
  | nil => cases grown
  | cons chunk rest =>
      obtain ⟨next, allocated⟩ := chunk
      cases allocated with
      | true => cases grown
      | false =>
          simp only at grown
          by_cases short : old + next < newSize + headerSize
          · rw [if_pos short] at grown
            cases grown
          rw [if_neg short] at grown
          cases grown
          refine ⟨?_, by omega⟩
          -- what is granted does not tell which chunks are allocated
          have expanded : (heap.resize target (span Chunk.size before) (newSize + headerSize)).Allots p n ↔ _ :=
            Heap.resize_allots valid here (by simp only [Gap.absorbNext]; omega)
          rw [Nat.add_sub_cancel, ← expanded]
          simp only [Heap.resize, Heap.expand, Heap.Allots, Gap.heap]
          split <;> rfl

end Operations

end Picoalloc
